import TensorLowering.Proofs.Build.Agreement
import TensorLowering.Proofs.Build.Declared

/-!
# Checks that may be left to guards

Sizes that must agree are compared during the construction when both are known, and by a guard when
the program runs otherwise. Either way they agree where the construction goes on. Main statement:
two shapes have common sizes exactly where their broadcast goes on.
-/
namespace TensorLowering

open Numeric NdArray

/-- A failed check may end the construction, or leave a guard that stops the program. -/
structure Limits.Refuses (l : Limits) : Prop where
  fails : ∀ e, l.fails e
  stops : ∀ message, l.stops (.guardFailed message)

/-- The axes that two lists share, aligned on their ends. -/
def sharedAxes {α : Type} (xs ys : List α) : List (α × α) :=
  (xs.drop (xs.length - ys.length)).zip (ys.drop (ys.length - xs.length))

/-- Where neither of two sizes is known, the size to which they stretch, if there is one, is the
larger of the two, and a double holds it. -/
def Size.Settles (z : Size × Size) (n : Nat × Nat) : Prop :=
  z.1.known = none → z.2.known = none →
    ∀ k, commonSize? n.1 n.2 = some k → k = Max.max n.1 n.2 ∧ Binary64.IsExact k

open Stage

namespace Build

variable {α : Type} {l : Limits} {s : Stage} {lhs rhs : Size} {m n : Int} {zs zs' : List Size}
  {ms ns : List Nat} {post : α → Stage → Prop}

theorem discard_meets {b : Build α} (h : b.Meets l s post) :
    (discard b).Meets l s fun _ s' => ∃ a, post a s' :=
  Meets.bind h fun a _ _ ha => .pure ⟨a, ha⟩

theorem guard_meets {cond : GuardCond} {message : String} {holds : Bool}
    (hcond : cond.holds s.env = .ok holds)
    (hstops : holds = false → l.stops (.guardFailed message)) :
    (guard cond message).Meets l s fun _ _ => holds = true := by
  have hvalue : evalNode s.supply s.env ⟨.guard ⟨cond, message⟩, .unit⟩ =
      if holds then .ok .unit else .error (.guardFailed message) := by
    simp only [evalNode, hcond, Bind.bind, Except.bind]
    rfl
  refine .create_of_stops (fun e he => ?_) fun value hok => ?_
  · cases holds with
    | true => cases hvalue.symm.trans he
    | false =>
        cases hvalue.symm.trans he
        exact hstops rfl
  · cases holds with
    | true => rfl
    | false => cases hvalue.symm.trans hok

theorem requireEqual_meets {what : String} (hm : s.IsSize l lhs m) (hn : s.IsSize l rhs n)
    (hwrong : m ≠ n → l.Refuses) : (requireEqual lhs rhs what).Meets l s fun _ _ => m = n := by
  have hguard : (discard (guard (.equal lhs.value rhs.value)
      ("mismatching " ++ what))).Meets l s fun _ _ => m = n := by
    have hcond : (GuardCond.equal lhs.value rhs.value).holds s.env = .ok (m == n) := by
      simp only [GuardCond.holds, hm.index, hn.index, Bind.bind, Except.bind]
      rfl
    refine (discard_meets (guard_meets hcond fun hne => (hwrong ?_).stops _)).weaken ?_
    · exact beq_eq_false_iff_ne.1 hne
    · rintro _ _ - ⟨_, heq⟩
      exact beq_iff_eq.1 heq
  unfold requireEqual
  split
  next x y hx hy =>
    obtain rfl := hm.known x hx
    obtain rfl := hn.known y hy
    split
    next heq => exact .pure heq
    next hne => exact (hwrong hne).fails _
  next => exact hguard

theorem requireDivisible_meets {what : String} (hm : s.IsSize l lhs m) (hn : s.IsSize l rhs n)
    (hpos : 1 ≤ n) (hfails : ∀ e, l.fails e)
    (hwrong : ¬ n ∣ m → ∀ message, l.stops (.guardFailed message)) :
    (requireDivisible lhs rhs what).Meets l s fun _ _ => n ∣ m := by
  unfold requireDivisible
  split
  next x y hx hy =>
    obtain rfl := hm.known x hx
    obtain rfl := hn.known y hy
    split
    next => exact hfails _
    next =>
      split
      next hdvd => exact .pure hdvd.2
      next => exact hfails _
  next =>
    have hcond : (GuardCond.divisible lhs.value rhs.value).holds s.env = .ok (m % n == 0) := by
      have hzero : n ≠ 0 := by omega
      have hminus : ¬ (n = -1 ∧ m = minInt64) := by omega
      simp only [GuardCond.holds, hm.index, hn.index, Bind.bind, Except.bind, if_neg hzero,
        if_neg hminus]
      rfl
    refine (discard_meets (guard_meets hcond fun hne => hwrong ?_ _)).weaken ?_
    · rw [Int.dvd_iff_emod_eq_zero]
      exact beq_eq_false_iff_ne.1 hne
    · rintro _ _ - ⟨_, heq⟩
      exact Int.dvd_iff_emod_eq_zero.2 (beq_iff_eq.1 heq)

/-! ## Common sizes -/

/-- A guard lets a size through that is one or the size of the target. -/
theorem broadcastable_guard_meets {z target : Size} {message : String}
    (hm : s.HasSize z m) (hn : s.HasSize target n)
    (hwrong : m ≠ 1 → m ≠ n → l.stops (.guardFailed message)) :
    (discard (guard (.broadcastable z.value target.value) message)).Meets l s
      fun _ _ => m = 1 ∨ m = n := by
  have hcond : (GuardCond.broadcastable z.value target.value).holds s.env =
      .ok (m == 1 || m == n) := by
    simp only [GuardCond.holds, hm.index, hn.index, Bind.bind, Except.bind]
    split
    next hone =>
      rw [hone]
      rfl
    next hone =>
      rw [beq_eq_false_iff_ne.2 hone]
      rfl
  refine (discard_meets (guard_meets hcond fun hne => ?_)).weaken ?_
  · rw [Bool.or_eq_false_iff, beq_eq_false_iff_ne, beq_eq_false_iff_ne] at hne
    exact hwrong hne.1 hne.2
  · rintro _ _ - ⟨_, hor⟩
    simpa using hor

/-- The larger of two unknown sizes, both of them read through doubles. -/
theorem max_meets (hm : s.HasSize lhs m) (hn : s.HasSize rhs n) (hlhs : lhs.known = none)
    (hrhs : rhs.known = none) :
    (Build.max lhs rhs).Meets l s fun z s' =>
      s'.HasSize z (Max.max (Binary64.ofInt m).toInt64 (Binary64.ofInt n).toInt64) := by
  have hvalue : evalNode s.supply s.env ⟨.arith .max lhs.value rhs.value, .index⟩ =
      .ok (.index (Max.max (Binary64.ofInt m).toInt64 (Binary64.ofInt n).toInt64)) := by
    simp only [evalNode, hm.number, hn.number, Bind.bind, Except.bind]
    rfl
  simp only [Build.max, arith, hlhs, hrhs]
  exact .bind (.create hvalue fun _ => s.get?_emit_self _ _ _) fun v s' _ hget =>
    .pure (.of_unknown hget rfl)

/-- Two unknown sizes stretch to the larger of the two, as it is read from doubles, if each of them
is that or one. -/
theorem broadcastSize_open_meets {larger : Int} {axis : Nat} (hm : s.HasSize lhs m)
    (hn : s.HasSize rhs n) (hlhs : lhs.known = none) (hrhs : rhs.known = none)
    (hlarger : Max.max (Binary64.ofInt m).toInt64 (Binary64.ofInt n).toInt64 = larger)
    (hstops : ¬ ((m = 1 ∨ m = larger) ∧ (n = 1 ∨ n = larger)) →
      l.stops (.guardFailed s!"incompatible batch dimension {axis}")) :
    (broadcastSize lhs rhs axis).Meets l s fun z s' =>
      ((m = 1 ∨ m = larger) ∧ (n = 1 ∨ n = larger)) ∧ s'.HasSize z larger := by
  subst hlarger
  simp only [broadcastSize, Size.isOne, hlhs, hrhs]
  refine .bind (max_meets hm hn hlhs hrhs) fun z s₁ hle₁ hz => ?_
  refine .bind (broadcastable_guard_meets (hm.mono hle₁) hz
    fun hone hne => hstops fun hends => hends.1.elim hone hne) ?_
  rintro _ s₂ hle₂ hleft
  refine .bind (broadcastable_guard_meets (hn.mono (hle₁.trans hle₂)) (hz.mono hle₂)
    fun hone hne => hstops fun hends => hends.2.elim hone hne) ?_
  rintro _ s₃ hle₃ hright
  exact .pure ⟨⟨hleft, hright⟩, hz.mono (hle₂.trans hle₃)⟩

/-- Two unknown sizes are refused if one of them is neither one nor the larger of the two, as it is
read from a double. -/
theorem broadcastSize_refuses {axis : Nat} (hm : s.HasSize lhs m) (hn : s.HasSize rhs n)
    (hlhs : lhs.known = none) (hrhs : rhs.known = none)
    (hwrong : ∀ larger, Max.max (Binary64.ofInt m).toInt64 (Binary64.ofInt n).toInt64 = larger →
      ¬ ((m = 1 ∨ m = larger) ∧ (n = 1 ∨ n = larger)))
    (hstops : l.stops (.guardFailed s!"incompatible batch dimension {axis}")) :
    (broadcastSize lhs rhs axis).Meets l s fun _ _ => False :=
  (broadcastSize_open_meets hm hn hlhs hrhs rfl fun _ => hstops).weaken
    fun _ _ _ h => hwrong _ rfl h.1

/-- Two sizes of which each is one or the larger of them, as it is read from doubles, stretch to
that. -/
theorem commonSize?_of_larger {m n : Nat} {larger : Int}
    (hlarger : Max.max (Binary64.ofInt m).toInt64 (Binary64.ofInt n).toInt64 = larger)
    (hends : ((m : Int) = 1 ∨ (m : Int) = larger) ∧ ((n : Int) = 1 ∨ (n : Int) = larger)) :
    ∃ k : Nat, commonSize? m n = some k ∧ larger = k := by
  have hone : (Binary64.ofInt (1 : Nat)).toInt64 = 1 := Binary64.isExact_one
  obtain ⟨hleft, hn1 | rfl⟩ := hends
  · obtain hm1 | rfl := hleft
    · obtain rfl : n = 1 := by omega
      obtain rfl : m = 1 := by omega
      exact ⟨1, rfl, by rw [← hlarger, hone]; rfl⟩
    · exact ⟨m, commonSize?_eq_some.2 (by omega), rfl⟩
  · exact ⟨n, commonSize?_eq_some.2 (by omega), rfl⟩

/-- Sizes that settle are let through by the guards. -/
theorem settles_passes {m n k : Nat} {larger : Int}
    (h : Size.Settles (lhs, rhs) (m, n)) (hlhs : lhs.known = none) (hrhs : rhs.known = none)
    (hcommon : commonSize? m n = some k)
    (hlarger : Max.max (Binary64.ofInt m).toInt64 (Binary64.ofInt n).toInt64 = larger) :
    ((m : Int) = 1 ∨ (m : Int) = larger) ∧ ((n : Int) = 1 ∨ (n : Int) = larger) := by
  obtain ⟨hk, hexact⟩ := h hlhs hrhs k hcommon
  obtain ⟨hm, hn⟩ := commonSize?_stretches hcommon
  have hround : ∀ {x : Nat}, x = 1 ∨ x = k → (Binary64.ofInt x).toInt64 = x := by
    rintro x (rfl | rfl)
    · exact Binary64.isExact_one
    · exact hexact
  rw [hround hm, hround hn] at hlarger
  omega

/-- A known size next to an unknown one is the common size, unless it is one. -/
theorem broadcastSize_left_meets {m n axis : Nat} (hm : s.HasSize lhs m) (hn : s.HasSize rhs n)
    (hlhs : lhs.known = some (m : Int)) (hrhs : rhs.known = none)
    (hstops : commonSize? m n = none → ∀ message, l.stops (.guardFailed message)) :
    (broadcastSize lhs rhs axis).Meets l s fun z s' =>
      ∃ k : Nat, commonSize? m n = some k ∧ s'.HasSize z k := by
  simp only [broadcastSize, Size.isOne, hlhs, hrhs]
  rw [if_neg (by simp)]
  split
  next hone =>
    obtain rfl : m = 1 := by simpa using hone
    exact .pure ⟨n, commonSize?_one_left n, hn⟩
  next hone =>
    have hm1 : m ≠ 1 := by simpa using hone
    refine .bind (broadcastable_guard_meets hn hm fun hn1 hne =>
      hstops (commonSize?_eq_none.2 (by omega)) _) ?_
    rintro _ s₁ hle₁ hends
    exact .pure ⟨m, commonSize?_eq_some.2 (by omega), hm.mono hle₁⟩

theorem broadcastSize_right_meets {m n axis : Nat} (hm : s.HasSize lhs m) (hn : s.HasSize rhs n)
    (hlhs : lhs.known = none) (hrhs : rhs.known = some (n : Int))
    (hstops : commonSize? m n = none → ∀ message, l.stops (.guardFailed message)) :
    (broadcastSize lhs rhs axis).Meets l s fun z s' =>
      ∃ k : Nat, commonSize? m n = some k ∧ s'.HasSize z k := by
  simp only [broadcastSize, Size.isOne, hlhs, hrhs]
  rw [if_neg (by simp), if_neg (by simp)]
  split
  next hone =>
    obtain rfl : n = 1 := by simpa using hone
    exact .pure ⟨m, commonSize?_one_right m, hm⟩
  next hone =>
    have hn1 : n ≠ 1 := by simpa using hone
    refine .bind (broadcastable_guard_meets hm hn fun hm1 hne =>
      hstops (commonSize?_eq_none.2 (by omega)) _) ?_
    rintro _ s₁ hle₁ hends
    exact .pure ⟨n, commonSize?_eq_some.2 (by omega), hn.mono hle₁⟩

/-- The common size of two sizes. Whether they have one shows during the construction or at a
guard, which may also stop the program where the sizes do not settle. -/
theorem broadcastSize_meets {m n axis : Nat} (hm : s.HasSize lhs m) (hn : s.HasSize rhs n)
    (hfails : commonSize? m n = none → ∀ what x y, l.fails (.staticShapeMismatch what x y))
    (hstops : commonSize? m n = none ∨ ¬ Size.Settles (lhs, rhs) (m, n) →
      ∀ message, l.stops (.guardFailed message)) :
    (broadcastSize lhs rhs axis).Meets l s fun z s' =>
      ∃ k : Nat, commonSize? m n = some k ∧ s'.HasSize z k := by
  cases hlhs : lhs.known with
  | some x =>
      obtain rfl := hm.known x hlhs
      cases hrhs : rhs.known with
      | some y =>
          obtain rfl := hn.known y hrhs
          refine ((broadcastSize_known hlhs hrhs hfails).meets fun _ => id).weaken ?_
          rintro z s' - ⟨rfl, ⟨hcommon, rfl⟩ | ⟨hcommon, rfl⟩⟩
          · exact ⟨m, hcommon, hm⟩
          · exact ⟨n, hcommon, hn⟩
      | none => exact broadcastSize_left_meets hm hn hlhs hrhs (hstops ∘ .inl)
  | none =>
      cases hrhs : rhs.known with
      | some y =>
          obtain rfl := hn.known y hrhs
          exact broadcastSize_right_meets hm hn hlhs hrhs (hstops ∘ .inl)
      | none =>
          refine (broadcastSize_open_meets hm hn hlhs hrhs rfl fun hwrong => hstops ?_ _).weaken ?_
          · cases hcommon : commonSize? m n with
            | none => exact .inl rfl
            | some k => exact .inr fun h => hwrong (settles_passes h hlhs hrhs hcommon rfl)
          · rintro z s' - ⟨hends, hz⟩
            obtain ⟨k, hcommon, hk⟩ := commonSize?_of_larger rfl hends
            exact ⟨k, hcommon, hk ▸ hz⟩

/-- Corresponding sizes of two lists of sizes. -/
def AreSizePairs (s : Stage) (pairs : List (Size × Size)) (known : List (Nat × Nat)) : Prop :=
  List.Forall₂ (fun z (n : Nat × Nat) => s.HasSize z.1 n.1 ∧ s.HasSize z.2 n.2) pairs known

/-- The common sizes of axes that correspond. -/
theorem mapM_broadcastSize_meets {pairs : List (Size × Size)} {known : List (Nat × Nat)}
    {axis : Nat} (hpairs : AreSizePairs s pairs known)
    (hfails : (¬ ∃ sizes, Common known sizes) → ∀ what x y, l.fails (.staticShapeMismatch what x y))
    (hstops : (¬ ∃ sizes, Common known sizes) ∨ ¬ List.Forall₂ Size.Settles pairs known →
      ∀ message, l.stops (.guardFailed message)) :
    ((pairs.zipIdx axis).mapM fun ((m, n), axis) => broadcastSize m n axis).Meets l s
      fun zs s' => ∃ sizes, Common known sizes ∧ s'.HaveSizes zs sizes := by
  induction known generalizing s pairs axis with
  | nil =>
      cases hpairs
      exact .pure ⟨[], .nil, .nil⟩
  | cons n known ih =>
      cases hpairs with
      | @cons z _ pairs _ hz hrest =>
          rw [List.zipIdx_cons, List.mapM_cons]
          have hfirst : commonSize? n.1 n.2 = none → ¬ ∃ sizes, Common (n :: known) sizes := by
            rintro hnone ⟨sizes, hcommon⟩
            cases hcommon with
            | cons hk _ => cases hnone.symm.trans hk
          have hlater : (¬ ∃ sizes, Common known sizes) →
              ¬ ∃ sizes, Common (n :: known) sizes := by
            rintro hnone ⟨sizes, hcommon⟩
            cases hcommon with
            | cons _ hcommon => exact hnone ⟨_, hcommon⟩
          refine .bind (broadcastSize_meets hz.1 hz.2 (hfails ∘ hfirst) fun hor => hstops ?_) ?_
          · exact hor.imp hfirst fun hn hall => hn (List.forall₂_cons.1 hall).1
          rintro y s₁ hle₁ ⟨k, hk, hy⟩
          have hrest₁ : AreSizePairs s₁ pairs known :=
            List.Forall₂.imp (fun _ _ h => ⟨h.1.mono hle₁, h.2.mono hle₁⟩) hrest
          refine .bind (ih hrest₁ (hfails ∘ hlater) fun hor => hstops ?_) ?_
          · exact hor.imp hlater fun hn hall => hn (List.forall₂_cons.1 hall).2
          rintro ys s₂ hle₂ ⟨sizes, hcommon, hys⟩
          exact .pure ⟨k :: sizes, .cons hk hcommon, .cons (hy.mono hle₂) hys⟩

/-- The sizes to which two lists of sizes stretch. -/
theorem broadcastSizes_common_meets (hl : s.HaveSizes zs ms) (hr : s.HaveSizes zs' ns)
    (hfails : (∀ sizes, broadcastShape ms ns ≠ .ok sizes) →
      ∀ what x y, l.fails (.staticShapeMismatch what x y))
    (hstops : (∀ sizes, broadcastShape ms ns ≠ .ok sizes) ∨
        ¬ List.Forall₂ Size.Settles (sharedAxes zs zs') (sharedAxes ms ns) →
      ∀ message, l.stops (.guardFailed message)) :
    (broadcastSizes zs zs').Meets l s fun ys s' =>
      ∃ sizes, broadcastShape ms ns = .ok sizes ∧ s'.HaveSizes ys sizes := by
  have hzip : ∀ {zs zs' : List Size} {ms ns : List Nat}, s.HaveSizes zs ms →
      s.HaveSizes zs' ns → AreSizePairs s (zs.zip zs') (ms.zip ns) := by
    intro zs zs' ms ns h h'
    induction h generalizing zs' ns with
    | nil => exact .nil
    | cons hz _ ih =>
        cases h' with
        | nil => exact .nil
        | cons hz' h' => exact .cons ⟨hz, hz'⟩ (ih h')
  have hnone : (¬ ∃ sizes, Common (sharedAxes ms ns) sizes) →
      ∀ sizes, broadcastShape ms ns ≠ .ok sizes := by
    intro hnone sizes hsizes
    obtain ⟨inner, hinner, -⟩ := broadcastShape_eq_ok hsizes
    exact hnone ⟨inner, hinner⟩
  simp only [sharedAxes, hl.length_eq, hr.length_eq] at hstops
  simp only [broadcastSizes, hl.length_eq, hr.length_eq]
  refine .bind (mapM_broadcastSize_meets
    (hzip (List.forall₂_drop _ hl) (List.forall₂_drop _ hr)) (hfails ∘ hnone)
    fun hor => hstops (hor.imp_left hnone)) ?_
  rintro ys s₁ hle₁ ⟨inner, hinner, hys⟩
  have houter : s.HaveSizes
      (zs.take (ms.length - ns.length) ++ zs'.take (ns.length - ms.length))
      (ms.take (ms.length - ns.length) ++ ns.take (ns.length - ms.length)) :=
    List.rel_append (List.forall₂_take _ hl) (List.forall₂_take _ hr)
  exact .pure ⟨_, broadcastShape_of_common hinner, List.rel_append (houter.mono hle₁) hys⟩

/-- The sizes to which two shapes without a zero stretch, where doubles hold all sizes. -/
theorem broadcastSizes_meets (hl : s.AreSizes l zs ms) (hr : s.AreSizes l zs' ns)
    (hms : ∀ n ∈ ms, 1 ≤ n) (hns : ∀ n ∈ ns, 1 ≤ n)
    (hwrong : (∀ sizes, broadcastShape ms ns ≠ .ok sizes) → l.Refuses) :
    (broadcastSizes zs zs').Meets l s fun ys s' =>
      ∃ sizes, broadcastShape ms ns = .ok sizes ∧ s'.AreSizes l ys sizes := by
  have hms' : ∀ n ∈ ms, Binary64.IsExact n ∧ l.considers (.index n) := hl.all
  have hns' : ∀ n ∈ ns, Binary64.IsExact n ∧ l.considers (.index n) := hr.all
  have hlen : (sharedAxes zs zs').length = (sharedAxes ms ns).length := by
    have := hl.length_eq
    have := hr.length_eq
    simp only [sharedAxes, List.length_zip, List.length_drop]
    omega
  have hmax : List.Forall₂ Size.Settles (sharedAxes zs zs') (sharedAxes ms ns) := by
    refine List.forall₂_iff_zip.2 ⟨hlen, fun {z n} he _ _ k hk => ?_⟩
    obtain ⟨hm, hn⟩ := List.of_mem_zip (List.of_mem_zip he).2
    replace hm := List.mem_of_mem_drop hm
    replace hn := List.mem_of_mem_drop hn
    have hm1 := hms _ hm
    have hn1 := hns _ hn
    unfold commonSize? at hk
    split at hk
    next heq =>
      cases hk
      exact ⟨by omega, (hms' _ hm).1⟩
    next =>
      split at hk
      next hone =>
        cases hk
        exact ⟨by omega, (hns' _ hn).1⟩
      next =>
        split at hk
        next hone =>
          cases hk
          exact ⟨by omega, (hms' _ hm).1⟩
        next => cases hk
  refine (broadcastSizes_common_meets hl.haveSizes hr.haveSizes
    (fun hnone _ _ _ => (hwrong hnone).fails _)
    fun hor => (hwrong (hor.resolve_right (not_not.2 hmax))).stops).weaken ?_
  rintro ys s' - ⟨sizes, hsizes, hys⟩
  refine ⟨sizes, hsizes, hys.areSizes fun n hn => ?_⟩
  rcases mem_of_broadcastShape hsizes hn with hn | hn
  · exact hms' n hn
  · exact hns' n hn

end Build

end TensorLowering
