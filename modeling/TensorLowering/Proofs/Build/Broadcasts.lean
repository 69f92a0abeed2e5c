import TensorLowering.Proofs.Build.Guards

/-!
# Broadcasting of sizes

Sizes that are known are broadcast during the construction, and the others by nodes of the program.
Main statement: whichever sizes are known, what goes through and what comes out is what broadcasting
of the shapes says, as long as the larger one of two unknown sizes is the one that they stretch to.
-/
namespace TensorLowering

open Numeric NdArray Stage

variable {g : Graph} {supply : Supply} {env : Env} {zs zs' : List Size} {ms ns : List Nat}

/-- The construction goes on, and so does the program, in which the sizes have these values. -/
def Build.GivesSizes (b : Build (List Size)) (g : Graph) (supply : Supply) (sizes : List Nat) :
    Prop :=
  ∃ ys d env, b.run (.ofGraph g) = (.ok ys, d) ∧ d.commit.evaluate supply = .ok env ∧
    env.sizes (Size.values ys) = .ok sizes

/-- The construction fails because of sizes that are known, or a guard stops the program. -/
structure Build.RefusesSizes (b : Build (List Size)) (g : Graph) (supply : Supply) : Prop where
  construction : ∀ e d, b.run (.ofGraph g) = (.error e, d) →
    ∃ what m n, e = .staticShapeMismatch what m n
  program : ∀ ys d, b.run (.ofGraph g) = (.ok ys, d) →
    ∃ message, d.commit.evaluate supply = .error (.guardFailed message)

/-- The sizes have these values when the program runs, and what is known of them is true. -/
def Env.HaveSizes (env : Env) (zs : List Size) (ns : List Nat) : Prop :=
  List.Forall₂ (fun z (n : Nat) => env.get? z.value = some (.index n) ∧
    ∀ m, z.known = some m → m = (n : Int)) zs ns

namespace Build

/-! ## How the construction fails -/

theorem broadcastSize_error {lhs rhs : Size} {axis : Nat} {d d' : Draft} {e : LowerError}
    (h : (broadcastSize lhs rhs axis).run d = (.error e, d')) :
    ∃ what m n, e = .staticShapeMismatch what m n := by
  unfold broadcastSize at h
  dsimp only at h
  split at h
  next => cases h
  next =>
  split at h
  next => cases h
  next =>
  split at h
  next => cases h
  next =>
  split at h
  next =>
    cases h
    exact ⟨_, _, _, rfl⟩
  next => cases h
  next => cases h
  next hx hy =>
    simp only [Build.max, arith, hx, hy] at h
    cases h

theorem broadcastSizes_error {d d' : Draft} {e : LowerError}
    (h : (broadcastSizes zs zs').run d = (.error e, d')) :
    ∃ what m n, e = .staticShapeMismatch what m n := by
  have hmapM : ∀ {pairs : List ((Size × Size) × Nat)} {d d' : Draft},
      (pairs.mapM fun pair => broadcastSize pair.1.1 pair.1.2 pair.2).run d = (.error e, d') →
        ∃ what m n, e = .staticShapeMismatch what m n := by
    intro pairs
    induction pairs with
    | nil =>
        intro d d' h
        cases h
    | cons pair pairs ih =>
        intro d d' h
        rw [List.mapM_cons, run_bind] at h
        split at h
        next y d₁ hfirst =>
          rw [run_bind] at h
          split at h
          next => cases h
          next hrest =>
            cases h
            exact ih hrest
        next hfirst =>
          cases h
          exact broadcastSize_error hfirst
  rw [broadcastSizes, run_bind] at h
  split at h
  next => cases h
  next hinner =>
    cases h
    exact hmapM hinner

/-! ## One relation for known and unknown sizes -/

/-- Broadcasting goes through exactly if the shapes of the values can be broadcast, and gives the
shape that they are broadcast to. -/
theorem broadcastSizes_agree (h : g.evaluate supply = .ok env) (hl : env.HaveSizes zs ms)
    (hr : env.HaveSizes zs' ns)
    (hmax : List.Forall₂ Size.Settles (sharedAxes zs zs') (sharedAxes ms ns)) :
    (∀ sizes, broadcastShape ms ns = .ok sizes →
        (broadcastSizes zs zs').GivesSizes g supply sizes) ∧
      ∀ e, broadcastShape ms ns = .error e →
        (broadcastSizes zs zs').RefusesSizes g supply := by
  have hsizes : ∀ {zs : List Size} {ns : List Nat}, env.HaveSizes zs ns →
      (Stage.ofRun h).HaveSizes zs ns :=
    fun h => List.Forall₂.imp (fun _ _ hz => ⟨hz.1, hz.2⟩) h
  let l : Limits := ⟨fun e => (∀ sizes, broadcastShape ms ns ≠ .ok sizes) ∧
      ∃ what m n, e = .staticShapeMismatch what m n,
    fun e => (∀ sizes, broadcastShape ms ns ≠ .ok sizes) ∧ ∃ message, e = .guardFailed message,
    fun _ => True⟩
  have hmeets := broadcastSizes_common_meets (l := l) (hsizes hl) (hsizes hr)
    (fun hnone what x y => ⟨hnone, what, x, y, rfl⟩)
    fun hor message => ⟨hor.resolve_right (not_not.2 hmax), message, rfl⟩
  generalize hrun : (broadcastSizes zs zs').run (.ofGraph g) = outcome
  obtain ⟨result, d⟩ := outcome
  rcases hmeets.commit h hrun fun _ _ _ _ _ _ _ => trivial with
    ⟨e, heval, hnone, message, rfl⟩ | ⟨e, rfl, hnone, -⟩ | ⟨ys, s, rfl, ⟨sizes, hok, hys⟩, heval⟩
  · refine ⟨fun sizes hok => absurd hok (hnone sizes), fun _ _ => ?_⟩
    refine ⟨fun e d' => broadcastSizes_error, fun ys d' hrun' => ?_⟩
    cases hrun.symm.trans hrun'
    exact ⟨message, heval⟩
  · refine ⟨fun sizes hok => absurd hok (hnone sizes), fun _ _ => ?_⟩
    refine ⟨fun e d' => broadcastSizes_error, fun ys d' hrun' => ?_⟩
    cases hrun.symm.trans hrun'
  · refine ⟨fun sizes' hok' => ?_, fun e herror => by cases hok.symm.trans herror⟩
    obtain rfl := Except.ok.inj (hok.symm.trans hok')
    exact ⟨ys, d, s.env, hrun, heval, hys.sizes⟩

/-- Two unknown sizes are refused if one of them is neither one nor the larger of the two, as it is
read from a double. -/
theorem broadcastSizes_refuse {lhs rhs : Size} {m n : Int} (larger : Int)
    (h : g.evaluate supply = .ok env) (hlhs : lhs.known = none) (hrhs : rhs.known = none)
    (hm : env.get? lhs.value = some (.index m)) (hn : env.get? rhs.value = some (.index n))
    (hlarger : Max.max (Binary64.ofInt m).toInt64 (Binary64.ofInt n).toInt64 = larger)
    (hwrong : ¬ ((m = 1 ∨ m = larger) ∧ (n = 1 ∨ n = larger))) :
    (broadcastSizes [lhs] [rhs]).RefusesSizes g supply := by
  let l : Limits := ⟨fun _ => False, fun e => ∃ message, e = .guardFailed message, fun _ => True⟩
  have hm' : (Stage.ofRun h).HasSize lhs m := .of_unknown hm hlhs
  have hn' : (Stage.ofRun h).HasSize rhs n := .of_unknown hn hrhs
  have hmeets : (broadcastSize lhs rhs 0).Meets l (Stage.ofRun h) fun _ _ => False :=
    broadcastSize_refuses hm' hn' hlhs hrhs (fun _ hmax => hmax.symm.trans hlarger ▸ hwrong)
      ⟨_, rfl⟩
  refine ⟨fun e d => broadcastSizes_error, fun ys d hrun => ?_⟩
  have hall : (broadcastSizes [lhs] [rhs]).Meets l (Stage.ofRun h) fun _ _ => False :=
    .bind_of_never (.bind_of_never hmeets)
  rcases hall.commit h hrun fun _ _ _ _ _ _ _ => trivial with
    ⟨e, heval, message, rfl⟩ | ⟨e, -, hfail⟩ | ⟨ys, s, -, hpost, -⟩
  · exact ⟨message, heval⟩
  · exact hfail.elim
  · exact hpost.elim

end Build

/-! ## Two sizes of which nothing is known -/

section Unknown

/-- Matrices of any sizes. -/
def anyMatrix : TensorType := ⟨.float32, ⟨[.dynamic, .dynamic]⟩⟩

/-- The program that takes in two matrices and reads how many rows they have. -/
def rowCounts : Graph :=
  (Draft.takingAs [anyMatrix, anyMatrix] [⟨.dim ⟨0⟩ 0, .index⟩, ⟨.dim ⟨1⟩ 0, .index⟩]).commit

def leftRows : Size := ⟨⟨2⟩, none⟩

def rightRows : Size := ⟨⟨3⟩, none⟩

/-- A matrix of that many empty rows. -/
def hollowRows (n : Nat) : Tensor := .ofEntries .float32 [n, 0] fun _ => 0

theorem evaluate_rowCounts (m n : Nat) :
    ∃ env, rowCounts.evaluate (.takingIn [hollowRows m, hollowRows n]) = .ok env ∧
      env.HaveSizes [leftRows] [m] ∧ env.HaveSizes [rightRows] [n] := by
  have htype : ∀ n, (hollowRows n).HasType anyMatrix := fun n =>
    ⟨rfl, Shape.admits_iff.2 (.cons (.dynamic n) (.cons (.dynamic 0) .nil))⟩
  obtain ⟨env, h, htaken⟩ := Graph.evaluate_takingAs
    (.cons (htype m) (.cons (htype n) .nil) :
      List.Forall₂ Tensor.HasType [hollowRows m, hollowRows n] [anyMatrix, anyMatrix])
  have hm : env.get? ⟨0⟩ = some (.tensor (hollowRows m)) := (htaken 0 _ _ rfl rfl).2.2
  have hn : env.get? ⟨1⟩ = some (.tensor (hollowRows n)) := (htaken 1 _ _ rfl rfl).2.2
  have hmshape : (hollowRows m).shape = [m, 0] := rfl
  have hnshape : (hollowRows n).shape = [n, 0] := rfl
  have hrun : (do
      let _ ← Build.create (.dim ⟨0⟩ 0) .index
      Build.create (.dim ⟨1⟩ 0) .index : Build ValueId).run
        (.ofGraph (.takingAs [anyMatrix, anyMatrix])) =
      (.ok ⟨3⟩, .takingAs [anyMatrix, anyMatrix]
        [⟨.dim ⟨0⟩ 0, .index⟩, ⟨.dim ⟨1⟩ 0, .index⟩]) := rfl
  have hnode : ∀ i, (Draft.takingAs [anyMatrix, anyMatrix]
      [⟨.dim ⟨0⟩ 0, .index⟩, ⟨.dim ⟨1⟩ 0, .index⟩]).graph.node? ⟨i + 2⟩ = _ :=
    Draft.node?_takingAs _ _
  refine ⟨(env.insert ⟨2⟩ (.index m)).insert ⟨3⟩ (.index n), ?_, ?_, ?_⟩
  · refine (Build.evaluate_commit h hrun).trans ?_
    change Graph.evalFrom _ _ env [⟨2⟩, ⟨3⟩] = _
    simp [Graph.evalFrom, Graph.evalStep, hnode, evalNode, Bind.bind, Except.bind, Pure.pure,
      Except.pure, Env.tensor, Env.get, Env.get?_insert, Value.toTensor, hm, hn, hmshape, hnshape]
  · exact .cons ⟨by simp [leftRows, Env.get?_insert], fun k hk => by cases hk⟩ .nil
  · exact .cons ⟨by simp [rightRows, Env.get?_insert], fun k hk => by cases hk⟩ .nil

/-- Two rows are stretched to by one, and not by three. -/
theorem broadcast_rowCounts :
    (Build.broadcastSizes [leftRows] [rightRows]).GivesSizes rowCounts
        (.takingIn [hollowRows 2, hollowRows 1]) [2] ∧
      (Build.broadcastSizes [leftRows] [rightRows]).RefusesSizes rowCounts
        (.takingIn [hollowRows 2, hollowRows 3]) := by
  obtain ⟨env, h, hleft, hright⟩ := evaluate_rowCounts 2 1
  obtain ⟨env', h', hleft', hright'⟩ := evaluate_rowCounts 2 3
  have hmax : Size.Settles (leftRows, rightRows) (2, 1) := fun _ _ k hk => by
    cases hk
    exact ⟨rfl, by decide +kernel⟩
  have hnone : Size.Settles (leftRows, rightRows) (2, 3) := fun _ _ k hk => by cases hk
  exact ⟨(Build.broadcastSizes_agree h hleft hright (.cons hmax .nil)).1 [2] rfl,
    (Build.broadcastSizes_agree h' hleft' hright' (.cons hnone .nil)).2 _ rfl⟩

/-- No rows and one row are refused, though they stretch to no rows, and so are as many rows as no
double holds on either side. -/
theorem unsettled_rows_refused :
    (∃ env, rowCounts.evaluate (.takingIn [hollowRows 0, hollowRows 1]) = .ok env ∧
        env.HaveSizes [leftRows] [0] ∧ env.HaveSizes [rightRows] [1] ∧
        broadcastShape [0] [1] = .ok [0] ∧
        (Build.broadcastSizes [leftRows] [rightRows]).RefusesSizes rowCounts
          (.takingIn [hollowRows 0, hollowRows 1])) ∧
      ∃ env, rowCounts.evaluate (.takingIn [hollowRows oversize, hollowRows oversize]) = .ok env ∧
        env.HaveSizes [leftRows] [oversize] ∧ env.HaveSizes [rightRows] [oversize] ∧
        broadcastShape [oversize] [oversize] = .ok [oversize] ∧
        (Build.broadcastSizes [leftRows] [rightRows]).RefusesSizes rowCounts
          (.takingIn [hollowRows oversize, hollowRows oversize]) := by
  constructor
  · obtain ⟨env, h, hleft, hright⟩ := evaluate_rowCounts 0 1
    refine ⟨env, h, hleft, hright, rfl, ?_⟩
    cases hleft with
    | cons hl _ =>
      cases hright with
      | cons hr _ =>
        exact Build.broadcastSizes_refuse 1 h rfl rfl hl.1 hr.1 (by decide +kernel)
          (by decide)
  · obtain ⟨env, h, hleft, hright⟩ := evaluate_rowCounts oversize oversize
    refine ⟨env, h, hleft, hright, rfl, ?_⟩
    cases hleft with
    | cons hl _ =>
      cases hright with
      | cons hr _ =>
        exact Build.broadcastSizes_refuse 9007199254740992 h rfl rfl hl.1 hr.1
          (by decide +kernel) (by decide)

end Unknown

end TensorLowering
