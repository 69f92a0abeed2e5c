import TensorLowering.Proofs.Build.DeclaredOperands
import TensorLowering.Proofs.Build.Guards

/-!
# Outcomes

The outcome of a program is the tensor that it gives, or the error at which it stops. `Ends` follows
a construction of which the outcome is known, so that two constructions that end alike give programs
that run alike. A declared size is a constant of the program, which reads it through a double; the
outcome is exact about sizes that are no doubles. Main statement: the outcome of a reduction over
zeros, given a declared type.
-/
namespace TensorLowering

open Numeric NdArray

/-! ## Sizes as a program reads them -/

/-- An axis as it is declared, with the size that it has. -/
structure DeclaredAxis where
  dim : Dim
  size : Nat

namespace DeclaredAxis

variable {x y : DeclaredAxis}

/-- What is known of the size while the program is constructed. -/
def known (x : DeclaredAxis) : Option Int :=
  match x.dim with
  | .static _ => some (clampNat x.size)
  | .dynamic => none

/-- The number that the program takes for the size. -/
def read (x : DeclaredAxis) : Nat :=
  match x.dim with
  | .static _ => (Binary64.ofInt (clampNat x.size)).toInt64.toNat
  | .dynamic => x.size

theorem clampNat_of_isExact {n : Nat} (h : Binary64.IsExact n) : clampNat n = n :=
  clampNat_of_le h.inInt64.2

theorem read_of_isExact (h : x.dim.isStatic = true → Binary64.IsExact x.size) :
    x.read = x.size := by
  obtain ⟨dim, size⟩ := x
  cases dim with
  | dynamic => rfl
  | static n =>
      have hexact : (Binary64.ofInt size).toInt64 = size := h rfl
      rw [read, clampNat_of_isExact (h rfl), hexact]
      exact Int.toNat_natCast size

/-- Sizes of which the same is known are read as one number. -/
theorem read_eq_of_known {m n : Int} (hx : x.known = some m) (hy : y.known = some n)
    (h : m = n) : x.read = y.read := by
  obtain ⟨_ | _, size⟩ := x
  · obtain ⟨_ | _, size'⟩ := y
    · cases hx
      cases hy
      simp only [read, h]
    · cases hy
  · cases hx

theorem exists_of_admits {dims : List Dim} {sizes : List Nat}
    (h : List.Forall₂ Dim.Admits dims sizes) :
    ∃ xs : List DeclaredAxis, dims = xs.map dim ∧ sizes = xs.map size ∧
      ∀ x ∈ xs, x.dim.Admits x.size := by
  induction h with
  | nil => exact ⟨[], rfl, rfl, nofun⟩
  | @cons d n dims sizes hd _ ih =>
      obtain ⟨xs, rfl, rfl, hxs⟩ := ih
      exact ⟨⟨d, n⟩ :: xs, rfl, rfl, List.forall_mem_cons.2 ⟨hd, hxs⟩⟩

end DeclaredAxis

namespace Stage

variable {s s' : Stage} {v : ValueId} {t : Tensor} {z : Size} {x : DeclaredAxis} {zs : List Size}
  {xs : List DeclaredAxis}

/-- The size is the one that is declared, and is read as declared sizes are. -/
structure Measures (s : Stage) (z : Size) (x : DeclaredAxis) : Prop where
  get : s.env.get? z.value = some (.index x.read)
  known : z.known = x.known

theorem Measures.mono (h : s.Measures z x) (hle : s ≤ s') : s'.Measures z x :=
  ⟨hle.get _ _ h.get, h.known⟩

theorem Measures.index (h : s.Measures z x) : s.env.index z.value = .ok (x.read : Int) :=
  Env.index_eq_ok.2 h.get

/-- A size that is read as it is has no other value. -/
theorem Measures.hasSize (h : s.Measures z x) (hread : x.read = x.size) : s.HasSize z x.size := by
  refine ⟨hread ▸ h.get, fun m hm => ?_⟩
  rw [h.known] at hm
  obtain ⟨_ | _, size⟩ := x
  · obtain rfl := Option.some.inj hm
    have hle : (Binary64.ofInt (clampNat size)).toInt64 ≤ maxInt64 :=
      (Binary64.inInt64_toInt64 _).2
    have hsize : (Binary64.ofInt (clampNat size)).toInt64.toNat = size := hread
    refine clampNat_of_le (?_ : (size : Int) ≤ maxInt64)
    simp only [maxInt64] at hle ⊢
    omega
  · cases hm

/-- The value is a tensor of which the axes are declared. -/
structure HasAxes (s : Stage) (v : ValueId) (t : Tensor) (xs : List DeclaredAxis) : Prop where
  declared : s.graph.tensorType v = .ok ⟨t.dtype, ⟨xs.map DeclaredAxis.dim⟩⟩
  shape : t.shape = xs.map DeclaredAxis.size
  admits : ∀ x ∈ xs, x.dim.Admits x.size
  get : s.env.get? v = some (.tensor t)

theorem HasAxes.mono (h : s.HasAxes v t xs) (hle : s ≤ s') : s'.HasAxes v t xs :=
  ⟨Le.tensorType hle h.declared, h.shape, h.admits, hle.get _ _ h.get⟩

theorem HasAxes.hasTensor (h : s.HasAxes v t xs) : s.HasTensor v t := by
  refine ⟨⟨_, h.declared, rfl, Shape.admits_iff.2 ?_⟩, h.get⟩
  rw [h.shape]
  exact List.forall₂_map_left_iff.2 (List.forall₂_map_right_iff.2
    (List.forall₂_same.2 h.admits))

theorem HasTensor.exists_axes (h : s.HasTensor v t) : ∃ xs, s.HasAxes v t xs := by
  obtain ⟨⟨⟨dtype, ⟨dims⟩⟩, hdeclared, hdtype, hadmits⟩, hget⟩ := h
  obtain rfl : t.dtype = dtype := hdtype
  obtain ⟨xs, rfl, hshape, hxs⟩ := DeclaredAxis.exists_of_admits (Shape.admits_iff.1 hadmits)
  exact ⟨xs, hdeclared, hshape, hxs, hget⟩

theorem HasAxes.eq_zipWith {type : TensorType} (h : s.HasAxes v t xs)
    (hdeclared : s.graph.tensorType v = .ok type) :
    xs = List.zipWith DeclaredAxis.mk type.shape.dims t.shape := by
  cases h.declared.symm.trans hdeclared
  rw [h.shape]
  simp

/-- The sizes of several axes. -/
def MeasuresAll (s : Stage) (zs : List Size) (xs : List DeclaredAxis) : Prop :=
  List.Forall₂ s.Measures zs xs

theorem MeasuresAll.mono (h : s.MeasuresAll zs xs) (hle : s ≤ s') : s'.MeasuresAll zs xs :=
  List.Forall₂.imp (fun _ _ hz => hz.mono hle) h

theorem MeasuresAll.eq_singleton (h : s.MeasuresAll zs [x]) : ∃ z, zs = [z] ∧ s.Measures z x := by
  obtain ⟨z, rest, hz, hrest, rfl⟩ := List.forall₂_cons_right_iff.1 h
  cases hrest
  exact ⟨z, rfl, hz⟩

theorem MeasuresAll.haveValues (h : s.MeasuresAll zs xs) :
    s.HaveValues zs (xs.map DeclaredAxis.read) :=
  List.forall₂_map_right_iff.2 (List.Forall₂.imp (fun _ _ hz => hz.get) h)

theorem MeasuresAll.haveSizes (h : s.MeasuresAll zs xs)
    (hread : xs.map DeclaredAxis.read = xs.map DeclaredAxis.size) :
    s.HaveSizes zs (xs.map DeclaredAxis.size) := by
  induction h with
  | nil => exact .nil
  | cons hz _ ih =>
      obtain ⟨hfirst, hrest⟩ := List.cons.inj hread
      exact .cons (hz.hasSize hfirst) (ih hrest)

/-- What is declared of sizes that are read as they are admits what is read. -/
theorem MeasuresAll.admits (h : s.MeasuresAll zs xs)
    (hread : xs.map DeclaredAxis.read = xs.map DeclaredAxis.size) :
    (Size.shape zs).Admits (xs.map DeclaredAxis.read) :=
  hread ▸ (h.haveSizes hread).admits

end Stage

/-- Tensors that are taken in have the axes that are declared. -/
theorem Graph.axes_takingAs {types : List TensorType} {ts : List Tensor}
    (h : List.Forall₂ Tensor.HasType ts types) :
    ∃ (env : Env) (heval : (takingAs types).evaluate (.takingIn ts) = .ok env),
      ∀ i t type, ts[i]? = some t → types[i]? = some type →
        OperandInfo.extract (takingAs types) ⟨i⟩ = .ok ⟨⟨i⟩, type, none⟩ ∧
          (Stage.ofRun heval).Reads ⟨⟨i⟩, type, none⟩ t none ∧
          (Stage.ofRun heval).HasAxes ⟨i⟩ t
            (List.zipWith DeclaredAxis.mk type.shape.dims t.shape) := by
  obtain ⟨env, heval, hplain⟩ := evaluate_takingAs h
  refine ⟨env, heval, fun i t type ht hi => ?_⟩
  obtain ⟨hextract, htype, hget⟩ := hplain i t type ht hi
  have hdeclared := OperandInfo.tensorType_of_extract hextract
  have htensor : (Stage.ofRun heval).HasTensor ⟨i⟩ t := ⟨⟨type, hdeclared, htype⟩, hget⟩
  obtain ⟨xs, hxs⟩ := htensor.exists_axes
  exact ⟨hextract, ⟨htype, htensor, .none⟩, hxs.eq_zipWith hdeclared ▸ hxs⟩

/-! ## Constructions that end -/

/-- The construction may fail, and its nodes stop the program only as the outcome says. -/
def Limits.ending (o : Except EvalError Tensor) : Limits :=
  ⟨fun _ => True, fun e => o = .error e, fun _ => True⟩

/-- Nothing is ruled out. -/
def Limits.any : Limits := ⟨fun _ => True, fun _ => True, fun _ => True⟩

open Stage

namespace Build

variable {α : Type} {l : Limits} {s : Stage} {o : Except EvalError Tensor} {v : ValueId}
  {t : Tensor} {z : Size} {lhs rhs : Size} {x y : DeclaredAxis}

/-- From the stage `s`, the construction fails, or the program with its nodes has the outcome. -/
def Ends (b : Build ValueId) (s : Stage) (o : Except EvalError Tensor) : Prop :=
  b.Meets (.ending o) s fun v s' => ∃ t, o = .ok t ∧ s'.env.get? v = some (.tensor t)

theorem Ends.run {b : Build ValueId} {g : Graph} {supply : Supply} {env : Env} {d : Draft}
    (h : g.evaluate supply = .ok env) (hb : b.Ends (Stage.ofRun h) o)
    (hrun : b.run (.ofGraph g) = (.ok v, d)) :
    (d.commit.withOutputs [v]).run supply = o.map fun t => [.tensor t] := by
  rcases Meets.commit h hb hrun fun _ _ _ _ _ _ _ => trivial with
    ⟨e, heval, rfl⟩ | ⟨e, he, -⟩ | ⟨w, s, hw, ⟨t, rfl, hget⟩, heval⟩
  · exact run_withOutputs_of_error heval
  · cases he
  · cases hw
    exact run_withOutputs heval hget

/-- Constructions that go on alike from wherever a common beginning leads end alike. -/
theorem exists_ends_bind {b : Build α} {f f' : α → Build ValueId} {post : α → Stage → Prop}
    (h : b.Meets .any s post)
    (hf : ∀ a s', s ≤ s' → post a s' → ∃ o, (f a).Ends s' o ∧ (f' a).Ends s' o) :
    ∃ o, (b >>= f).Ends s o ∧ (b >>= f').Ends s o := by
  have hfrom : ∀ {s₁ : Stage}, b.Meets .any s₁ (fun a s' => s ≤ s' ∧ post a s') →
      ∃ o, (b >>= f).Ends s₁ o ∧ (b >>= f').Ends s₁ o := by
    intro s₁ hb
    clear h
    induction b generalizing s₁ with
    | done a => exact hf a s₁ hb.1 hb.2
    | fail e => exact ⟨.error (.guardFailed ""), trivial, trivial⟩
    | inspect next ih => exact ih s₁.graph hb
    | emit op type next ih =>
        cases hvalue : evalNode s₁.supply s₁.env ⟨op, type⟩ with
        | error e =>
            have hends : ∀ f : α → Build ValueId, (emit op type next >>= f).Ends s₁ (.error e) :=
              fun f => ⟨fun e' he => congrArg _ (Except.error.inj (hvalue.symm.trans he)),
                fun value hok => by cases hvalue.symm.trans hok⟩
            exact ⟨.error e, hends f, hends f'⟩
        | ok value =>
            obtain ⟨o, hfirst, hsecond⟩ := ih s₁.graph.nextId (hb.2 value hvalue trivial)
            have hends : ∀ f : α → Build ValueId,
                (next s₁.graph.nextId >>= f).Ends (s₁.emit op type value) o →
                  (emit op type next >>= f).Ends s₁ o := by
              refine fun f hnext => ⟨fun e he => ?_, fun value' hvalue' _ => ?_⟩
              · cases hvalue.symm.trans he
              · obtain rfl := Except.ok.inj (hvalue.symm.trans hvalue')
                exact hnext
            exact ⟨o, hends f hfirst, hends f' hsecond⟩
  exact hfrom h.strengthen

/-! ## Sizes -/

/-- A constant is read through a double. -/
theorem index_reads (n : Int) :
    (index n).Meets l s fun z s' =>
      s'.env.get? z.value = some (.index (Binary64.ofInt n).toInt64) ∧ z.known = some n :=
  Meets.bind (Meets.create rfl fun _ => s.get?_emit_self _ _ _) fun _ _ _ hget => .pure ⟨hget, rfl⟩

/-- The size of a declared axis. -/
theorem dim_measures {xs : List DeclaredAxis} (hv : s.HasAxes v t xs) (axis : Nat)
    (hx : xs[axis]? = some x) : (dim v axis).Meets l s fun z s' => s'.Measures z x := by
  have hadmits := hv.admits x (List.mem_of_getElem? hx)
  have hdim : (xs.map DeclaredAxis.dim)[axis]? = some x.dim := by rw [List.getElem?_map, hx]; rfl
  obtain ⟨d, n⟩ := x
  refine .query hv.declared ?_
  rw [hdim]
  change d.Admits n at hadmits
  rcases hadmits with rfl | rfl
  · refine (index_reads (clampNat n)).weaken fun z s' _ hz => ⟨?_, hz.2⟩
    have hnonneg : 0 ≤ (Binary64.ofInt (clampNat n)).toInt64 := by
      refine Binary64.toInt64_nonneg ((Binary64.isNegative_ofInt _).trans (decide_eq_false ?_))
      simp only [clampNat, maxInt64]
      omega
    rw [hz.1, DeclaredAxis.read, Int.toNat_of_nonneg hnonneg]
  · have htensor := hv.hasTensor.tensor
    have hsize : t.shape[axis]? = some n := by
      rw [hv.shape, List.getElem?_map, hx]
      rfl
    have hvalue : evalNode s.supply s.env ⟨.dim v axis, .index⟩ = .ok (.index n) := by
      simp only [evalNode, htensor, hsize, Bind.bind, Except.bind]
      rfl
    exact Meets.bind (Meets.create hvalue fun _ => s.get?_emit_self _ _ _) fun w s' _ hget =>
      .pure ⟨hget, rfl⟩

/-- Whether two sizes are equal is seen in what is read. -/
theorem requireEqual_measures {what : String} (hx : s.Measures lhs x) (hy : s.Measures rhs y)
    (hfails : ∀ e, l.fails e)
    (hstops : x.read ≠ y.read → l.stops (.guardFailed ("mismatching " ++ what))) :
    (requireEqual lhs rhs what).Meets l s fun _ _ => x.read = y.read := by
  have hcond : (GuardCond.equal lhs.value rhs.value).holds s.env =
      .ok ((x.read : Int) == y.read) := by
    simp only [GuardCond.holds, hx.index, hy.index, Bind.bind, Except.bind]
    rfl
  unfold requireEqual
  split
  next m n hm hn =>
    split
    next heq => exact .pure (DeclaredAxis.read_eq_of_known (hx.known ▸ hm) (hy.known ▸ hn) heq)
    next => exact hfails _
  next =>
    refine (discard_meets (guard_meets hcond fun hne => hstops ?_)).weaken ?_
    · exact fun heq => beq_eq_false_iff_ne.1 hne (congrArg _ heq)
    · rintro _ _ - ⟨_, heq⟩
      exact Int.ofNat_inj.1 (beq_iff_eq.1 heq)

end Build

/-! ## Sums over zeros -/

/-- What loops over zeros of the given sizes end with, once they have been given a declared type. -/
def TensorType.summed (result : TensorType) (accumulator : DType) (sizes : List Nat)
    (loops : NdArray Binary64 → Except ArrayError (NdArray Binary64)) :
    Except EvalError Tensor := do
  if TooLarge sizes then
    throw (.array (.tooLarge sizes))
  let sums ← (loops (Tensor.ofEntries accumulator sizes fun _ => 0).data).mapError .array
  let t := (Tensor.ofArray accumulator sums).converted result.dtype
  t.check (.tensor result)
  return t

namespace TensorType

variable {result : TensorType} {accumulator : DType} {sizes : List Nat}
  {loops : NdArray Binary64 → Except ArrayError (NdArray Binary64)}

theorem summed_of_tooLarge (h : TooLarge sizes) :
    result.summed accumulator sizes loops = .error (.array (.tooLarge sizes)) := by
  rw [summed, if_pos h]
  rfl

theorem summed_of_error (h : ¬ TooLarge sizes) {e : ArrayError}
    (hloops : loops (Tensor.ofEntries accumulator sizes fun _ => 0).data = .error e) :
    result.summed accumulator sizes loops = .error (.array e) := by
  rw [summed, if_neg h, hloops]
  rfl

theorem summed_of_ok (h : ¬ TooLarge sizes) {sums : NdArray Binary64}
    (hloops : loops (Tensor.ofEntries accumulator sizes fun _ => 0).data = .ok sums) :
    result.summed accumulator sizes loops =
      (((Tensor.ofArray accumulator sums).converted result.dtype).check (.tensor result)).map
        fun _ => (Tensor.ofArray accumulator sums).converted result.dtype := by
  rw [summed, if_neg h, hloops]
  rfl

/-- Loops that run end with a tensor, if the declared type admits its sizes. -/
theorem exists_summed (h : ¬ TooLarge sizes) {sums : NdArray Binary64}
    (hloops : loops (Tensor.ofEntries accumulator sizes fun _ => 0).data = .ok sums)
    (hadmits : result.shape.Admits sums.shape) :
    ∃ t, result.summed accumulator sizes loops = .ok t := by
  have hcheck : ((Tensor.ofArray accumulator sums).converted result.dtype).check (.tensor result) =
      .ok () := Tensor.check_eq_ok.2 ⟨rfl, hadmits⟩
  rw [summed_of_ok h hloops, hcheck]
  exact ⟨_, rfl⟩

/-- Sizes that no array has, or that the declared type does not admit, are an error. No guard stops
at them. -/
theorem summed_fails {sums : NdArray Binary64}
    (hloops : loops (Tensor.ofEntries accumulator sizes fun _ => 0).data = .ok sums)
    (hsums : sums.shape = sizes) (h : TooLarge sizes ∨ ¬ result.shape.Admits sizes) :
    ∃ e, result.summed accumulator sizes loops = .error e ∧
      ∀ message, e ≠ .guardFailed message := by
  by_cases hlarge : TooLarge sizes
  · exact ⟨_, summed_of_tooLarge hlarge, nofun⟩
  have hadmits : ¬ result.shape.Admits
      ((Tensor.ofArray accumulator sums).converted result.dtype).shape := by
    change ¬ result.shape.Admits sums.shape
    rw [hsums]
    exact h.resolve_left hlarge
  have hcheck : ((Tensor.ofArray accumulator sums).converted result.dtype).check (.tensor result) =
      .error (.declaredShape sums.shape result.shape) :=
    (if_neg (not_not_intro rfl)).trans (if_neg hadmits)
  rw [summed_of_ok hlarge hloops, hcheck]
  exact ⟨_, rfl, nofun⟩

end TensorType

namespace Build

variable {s : Stage} {spec : ReductionSpec} {indexing : Indexing} {lhs rhs : ValueId}
  {a b : Tensor} {ids : Option (ValueId × ValueId)} {points : Option (Binary64 × Binary64)}
  {accumulator : DType} {zs : List Size} {ns : List Nat} {result : TensorType}

/-- A reduction over zeros ends as its loops do. They do not run unless the zeros have the sizes
that are known. -/
theorem summed_ends (hindexing : spec.indexing? = some indexing)
    (hquantized : spec.isQuantized = points.isSome) (ha : s.HasTensor lhs a)
    (hb : s.HasTensor rhs b) (hz : s.HasZeroPoints ids points) (hzs : s.HaveValues zs ns)
    (hranks : List.Forall₂ (fun rank m => rank = m.results.length)
      [a.shape.length, b.shape.length, ns.length] indexing.maps)
    (hadmits : ∀ init sums : NdArray Binary64, init.shape = ns →
      NdArray.reduce indexing spec.combine (a.widened spec.cast) (b.widened spec.cast)
        (points.getD (0, 0)) init = .ok sums → (Size.shape zs).Admits ns) :
    (do
      let init ← zeros zs accumulator
      let v ← reduce spec lhs rhs ids init
      finish v result : Build ValueId).Ends s
      (result.summed accumulator ns
        (NdArray.reduce indexing spec.combine (a.widened spec.cast) (b.widened spec.cast)
          (points.getD (0, 0)))) := by
  refine Meets.bind (zeros_array_meets hzs TensorType.summed_of_tooLarge) ?_
  rintro init s₁ hle₁ ⟨hinit, hfit⟩
  have hranks' : List.Forall₂ (fun shape m => shape.length = m.results.length)
      [a.shape, b.shape, (Tensor.ofEntries accumulator ns fun _ => 0).shape] indexing.maps := by
    rw [Tensor.shape_ofEntries]
    simpa [List.forall₂_cons_left_iff] using hranks
  refine Meets.bind (reduce_array_meets hindexing hquantized (ha.mono hle₁) (hb.mono hle₁) hinit
    (hz.mono hle₁) hranks' fun e he => TensorType.summed_of_error hfit he) ?_
  rintro v s₂ hle₂ ⟨sums, hsums, hv⟩
  have hadmits' : (Size.shape zs).Admits (Tensor.ofArray accumulator sums).shape := by
    rw [Tensor.shape_ofArray, shape_of_reduce hsums]
    exact hadmits _ _ (Tensor.shape_ofEntries ..) hsums
  refine (finish_checked_meets (hv.hasTensor hadmits') (fun _ _ => trivial) fun _ e he => ?_).weaken
    fun w s₃ _ hw => ⟨_, ?_, hw.1⟩
  · exact (TensorType.summed_of_ok hfit hsums).trans (congrArg (Except.map _) he)
  · have hcheck : ((Tensor.ofArray accumulator sums).converted result.dtype).check
        (.tensor result) = .ok () := Tensor.check_eq_ok.2 ⟨rfl, hw.2⟩
    exact (TensorType.summed_of_ok hfit hsums).trans (congrArg (Except.map _) hcheck)

end Build

end TensorLowering
