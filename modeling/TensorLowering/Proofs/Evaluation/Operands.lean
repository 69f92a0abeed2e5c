import TensorLowering.Eval.Run

/-!
# What the evaluation of a node reads

A node is evaluated in the values of its operands. An environment that holds the same values under
other names evaluates the renamed node to the same value, as far as the node can be evaluated at
all: an operand that is not read may have any value or none. Host operators take part in this when
their meaning does not depend on how their operands are called.
-/
namespace TensorLowering

/-! ## Meanings of host operators -/

theorem HostOp.mapOperands_mapOperands (f g : ValueId → ValueId) (op : HostOp) :
    (op.mapOperands f).mapOperands g = op.mapOperands (g ∘ f) := by
  have hattr : ∀ {α : Type} (a : Attr α), (a.mapOperands f).mapOperands g =
      a.mapOperands (g ∘ f) := by
    intro α a
    cases a <;> rfl
  cases op with
  | mm b | matmul b | bmm b => rfl
  | convolution c => simp [mapOperands, hattr]
  | trilinear t => simp [mapOperands, Triple.map, hattr]
  | flip p => simp [mapOperands, hattr]

/-- An operator that reads under new names what it read before is what it was. -/
theorem HostOp.mapOperands_eq_self {f : ValueId → ValueId} {op : HostOp}
    (h : ∀ v ∈ op.operands, f v = v) : op.mapOperands f = op := by
  have hattr : ∀ {α : Type} (a : Attr α), a.mapOperands f = a ↔ ∀ v ∈ a.operands, f v = v := by
    intro α a
    cases a <;> simp [Attr.mapOperands, Attr.operands]
  cases op with
  | mm b | matmul b | bmm b =>
      obtain ⟨lhs, rhs⟩ := b
      simpa [mapOperands, BinaryOperands.map, operands, BinaryOperands.toList] using h
  | convolution c =>
      obtain ⟨input, weight, bias, _⟩ := c
      cases bias <;> simpa [mapOperands, operands, hattr, or_imp, forall_and, and_assoc] using h
  | trilinear t =>
      obtain ⟨⟨a, b, c⟩, ⟨ea, eb, ec⟩, sumDim, unrollDim⟩ := t
      simpa [mapOperands, operands, Triple.map, Triple.toList, hattr, or_imp, forall_and, and_assoc]
        using h
  | flip p =>
      obtain ⟨input, dims⟩ := p
      simpa [mapOperands, operands, hattr] using h

/-- A host operator without the names of its operands: its kind and its constants are left. -/
def HostOp.anonymous (op : HostOp) : HostOp := op.mapOperands fun _ => ⟨0⟩

@[simp] theorem HostOp.anonymous_mapOperands (f : ValueId → ValueId) (op : HostOp) :
    (op.mapOperands f).anonymous = op.anonymous :=
  op.mapOperands_mapOperands f fun _ => ⟨0⟩

/-- Inputs, and a meaning for host operators: a function of the operator, however its operands are
called, and of their values. -/
def Supply.ofMeaning (input : String → Option Tensor)
    (meaning : HostOp → List Value → Except EvalError Value) : Supply :=
  ⟨input, some fun op values => meaning op.anonymous values⟩

/-- The meaning of host operators does not depend on the names of their operands. -/
def Supply.IgnoresNames (supply : Supply) : Prop :=
  ∀ meaning, supply.host = some meaning →
    ∀ (f : ValueId → ValueId) (op : HostOp) (values : List Value),
      meaning (op.mapOperands f) values = meaning op values

theorem Supply.ignoresNames_ofMeaning (input : String → Option Tensor)
    (meaning : HostOp → List Value → Except EvalError Value) :
    (ofMeaning input meaning).IgnoresNames := by
  intro m hm f op values
  cases hm
  simp

theorem Supply.ignoresNames_ofInputs (input : String → Option Tensor) :
    (ofInputs input).IgnoresNames := nofun

/-! ## Computations that succeed alike -/

/-- Wherever the first computation succeeds, the second gives the same result. -/
def Follows {ε α : Type} (x y : Except ε α) : Prop := ∀ a, x = .ok a → y = .ok a

namespace Follows

variable {ε α β : Type}

theorem refl (x : Except ε α) : Follows x x := fun _ h => h

theorem of_error {e : ε} {y : Except ε α} : Follows (.error e) y := nofun

theorem bind {x y : Except ε α} {f g : α → Except ε β} (h : Follows x y)
    (hfg : ∀ a, Follows (f a) (g a)) : Follows (x >>= f) (y >>= g) := by
  intro b hb
  cases x with
  | error e => cases hb
  | ok a =>
      rw [h a rfl]
      exact hfg a b hb

theorem mapM {γ : Type} {ids : List γ} {k : γ → γ} {f g : γ → Except ε β}
    (h : ∀ i ∈ ids, Follows (f i) (g (k i))) : Follows (ids.mapM f) ((ids.map k).mapM g) := by
  induction ids with
  | nil => exact refl _
  | cons i ids ih =>
      rw [List.map_cons, List.mapM_cons, List.mapM_cons]
      exact (h i (by simp)).bind fun b =>
        (ih fun j hj => h j (by simp [hj])).bind fun bs => refl _

end Follows

/-! ## Environments that hold the same values -/

/-- The second environment holds, under the new name of `id`, what the first one holds as `id`. -/
def Env.Carries (f : ValueId → ValueId) (env env' : Env) (id : ValueId) : Prop :=
  ∀ value, env.get? id = some value → env'.get? (f id) = some value

namespace Env.Carries

variable {f : ValueId → ValueId} {env env' : Env} {id : ValueId}

theorem get (h : Carries f env env' id) : Follows (env.get id) (env'.get (f id)) := by
  intro value hv
  cases hget : env.get? id with
  | none => simp [Env.get, hget] at hv
  | some other =>
      have hsame : other = value := by simpa [Env.get, hget] using hv
      simp [Env.get, h other hget, hsame]

theorem index (h : Carries f env env' id) : Follows (env.index id) (env'.index (f id)) :=
  h.get.bind fun _ => .refl _

theorem number (h : Carries f env env' id) : Follows (env.number id) (env'.number (f id)) :=
  h.get.bind fun _ => .refl _

theorem tensor (h : Carries f env env' id) : Follows (env.tensor id) (env'.tensor (f id)) :=
  h.get.bind fun _ => .refl _

theorem sizes {ids : List ValueId} (h : ∀ id ∈ ids, Carries f env env' id) :
    Follows (env.sizes ids) (env'.sizes (ids.map f)) :=
  .mapM fun id hid => (h id hid).index.bind fun _ => .refl _

end Env.Carries

/-! ## Nodes -/

variable {f : ValueId → ValueId} {env env' : Env}

theorem GuardCond.follows_holds {c : GuardCond}
    (h : ∀ id ∈ c.operands, Env.Carries f env env' id) :
    Follows (c.holds env) ((c.mapOperands f).holds env') := by
  cases c with
  | equal a b =>
      exact (h a (by simp [operands])).index.bind fun m =>
        (h b (by simp [operands])).index.bind fun n => .refl _
  | divisible value divisor =>
      refine (h divisor (by simp [operands])).index.bind fun d => ?_
      by_cases hd : d = 0
      · simp only [hd, ↓reduceIte]
        exact .refl _
      · simp only [hd, ↓reduceIte]
        exact (h value (by simp [operands])).index.bind fun n => .refl _
  | broadcastable size target =>
      refine (h size (by simp [operands])).index.bind fun m => ?_
      by_cases hm : m = 1
      · simp only [hm, ↓reduceIte]
        exact .refl _
      · simp only [hm, ↓reduceIte]
        exact (h target (by simp [operands])).index.bind fun n => .refl _

theorem follows_zeroPointsOf {spec : ReductionSpec} {zeroPoints : Option (ValueId × ValueId)}
    (h : ∀ z ∈ zeroPoints, Env.Carries f env env' z.1 ∧ Env.Carries f env env' z.2) :
    Follows (zeroPointsOf env spec zeroPoints)
      (zeroPointsOf env' spec (zeroPoints.map fun (za, zb) => (f za, f zb))) := by
  cases zeroPoints with
  | none => exact .refl _
  | some z =>
      obtain ⟨ha, hb⟩ := h z rfl
      exact ha.number.bind fun _ => hb.number.bind fun _ => .refl _

/-- A node that can be evaluated has the same value where its operands have the same values under
other names. -/
theorem follows_evalNode {supply : Supply} (hs : supply.IgnoresNames) {op : Op} {type : ValueType}
    (h : ∀ id ∈ op.operands, Env.Carries f env env' id) :
    Follows (evalNode supply env ⟨op, type⟩) (evalNode supply env' ⟨op.mapOperands f, type⟩) := by
  cases op with
  | input name => exact .refl _
  | constant value => exact .refl _
  | makeQuantized storage scale zeroPoint => exact (h storage (by simp [Op.operands])).get
  | host op =>
      simp only [evalNode, Op.mapOperands]
      cases hm : supply.host with
      | none => exact .of_error
      | some meaning =>
          simp only [HostOp.operands_mapOperands, hs meaning hm]
          exact (Follows.mapM fun id hid => (h id hid).get).bind fun _ => .refl _
  | dim source axis => exact (h source (by simp [Op.operands])).tensor.bind fun _ => .refl _
  | arith op lhs rhs =>
      exact (h lhs (by simp [Op.operands])).number.bind fun _ =>
        (h rhs (by simp [Op.operands])).number.bind fun _ => .refl _
  | scalarCast value => exact (h value (by simp [Op.operands])).number.bind fun _ => .refl _
  | guard g => exact (GuardCond.follows_holds h).bind fun _ => .refl _
  | fill sizes value =>
      exact (Env.Carries.sizes fun id hid => h id (by simp [Op.operands, hid])).bind fun _ =>
        (h value (by simp [Op.operands])).number.bind fun _ => .refl _
  | broadcast input sizes added | broadcastTo input sizes | expandShape input groups sizes =>
      exact (Env.Carries.sizes fun id hid => h id (by simp [Op.operands, hid])).bind fun _ =>
        (h input (by simp [Op.operands])).tensor.bind fun _ => .refl _
  | transpose input perm | flip input axes | collapseShape input groups
  | narrow input axis start len | squeeze input axis | unsqueeze input axis | sum input axis
  | convert input | cast input =>
      exact (h input (by simp [Op.operands])).tensor.bind fun _ => .refl _
  | pad input low high value =>
      exact (h input (by simp [Op.operands])).tensor.bind fun _ =>
        (h value (by simp [Op.operands])).number.bind fun _ => .refl _
  | insertSlice source dest offsets strides =>
      refine (Follows.mapM fun id hid => (h id (by simp [Op.operands, hid])).index).bind fun _ => ?_
      exact (h source (by simp [Op.operands])).tensor.bind fun _ =>
        (h dest (by simp [Op.operands])).tensor.bind fun _ => .refl _
  | elementwise op lhs rhs =>
      refine (h lhs (by simp [Op.operands])).tensor.bind fun a => ?_
      refine (h rhs (by simp [Op.operands])).get.bind fun v => ?_
      cases v with
      | tensor b => exact .refl _
      | index n | scalar dtype x | unit =>
          exact (h rhs (by simp [Op.operands])).number.bind fun _ => .refl _
  | reduce spec lhs rhs zeroPoints init =>
      have hz : ∀ z ∈ zeroPoints, Env.Carries f env env' z.1 ∧ Env.Carries f env env' z.2 := by
        rintro z hz
        rw [Option.mem_def] at hz
        subst hz
        exact ⟨h z.1 (by simp [Op.operands]), h z.2 (by simp [Op.operands])⟩
      have hlhs : Env.Carries f env env' lhs := h lhs (by cases zeroPoints <;> simp [Op.operands])
      have hrhs : Env.Carries f env env' rhs := h rhs (by cases zeroPoints <;> simp [Op.operands])
      have hinit : Env.Carries f env env' init :=
        h init (by cases zeroPoints <;> simp [Op.operands])
      refine (follows_zeroPointsOf hz).bind fun zs => ?_
      cases spec.indexing? with
      | none => exact .of_error
      | some indexing =>
          exact hlhs.tensor.bind fun _ => hrhs.tensor.bind fun _ =>
            hinit.tensor.bind fun _ => .refl _

end TensorLowering
