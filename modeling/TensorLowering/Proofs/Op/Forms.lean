import TensorLowering.Op.Operands

/-!
# Forms of operations

The form of an operation is what it is apart from the values it reads: its constants, and for each
optional operand whether it is there. Main statements: replacing operands keeps the form, and two
operations with the same form and the same operands are equal. Hence the operation with replaced
operands is the only one of its form that reads the new values.
-/
namespace TensorLowering

/-! ## Host operators -/

namespace Attr

variable {α : Type} {a b : Attr α} {l m : List ValueId}

/-- The constant, if the attribute is one. -/
def constant? : Attr α → Option α
  | const x => some x
  | dynamic _ => none

@[simp] theorem constant?_mapOperands (f : ValueId → ValueId) (a : Attr α) :
    (a.mapOperands f).constant? = a.constant? := by
  cases a <;> rfl

/-- Operands in a row are read back one attribute at a time. -/
theorem eq_of_append (hconstant : a.constant? = b.constant?)
    (h : a.operands ++ l = b.operands ++ m) : a = b ∧ l = m := by
  cases a with
  | const x =>
      cases b with
      | const y => exact ⟨congrArg const (Option.some.inj hconstant), h⟩
      | dynamic w => cases hconstant
  | dynamic v =>
      cases b with
      | const y => cases hconstant
      | dynamic w => exact ⟨congrArg dynamic (List.cons.inj h).1, (List.cons.inj h).2⟩

theorem eq_of_operands (hconstant : a.constant? = b.constant?) (h : a.operands = b.operands) :
    a = b :=
  (eq_of_append (l := []) (m := []) hconstant (by rw [h])).1

end Attr

/-- An optional operand is there for both or for none. -/
theorem eq_of_toList_append {a b : Option ValueId} {l m : List ValueId}
    (hsome : a.isSome = b.isSome) (h : a.toList ++ l = b.toList ++ m) : a = b ∧ l = m := by
  cases a with
  | none =>
      cases b with
      | none => exact ⟨rfl, h⟩
      | some w => cases hsome
  | some v =>
      cases b with
      | none => cases hsome
      | some w => exact ⟨congrArg some (List.cons.inj h).1, (List.cons.inj h).2⟩

structure Convolution.Form where
  bias : Bool
  stride : Option (List Int)
  padding : Option (List Int)
  dilation : Option (List Int)
  outputPadding : Option (List Int)
  transposed : Option Bool
  groups : Option Int
  deriving DecidableEq

structure Trilinear.Form where
  expand : Triple (Option (List Int))
  sumDim : Option (List Int)
  unrollDim : Option Int
  deriving DecidableEq

inductive HostOp.Form where
  | mm
  | matmul
  | bmm
  | convolution (form : Convolution.Form)
  | trilinear (form : Trilinear.Form)
  | flip (dims : Option (List Int))
  deriving DecidableEq

namespace HostOp

def form : HostOp → Form
  | mm _ => .mm
  | matmul _ => .matmul
  | bmm _ => .bmm
  | convolution c =>
      .convolution
        { bias := c.bias.isSome
          stride := c.stride.constant?
          padding := c.padding.constant?
          dilation := c.dilation.constant?
          outputPadding := c.outputPadding.constant?
          transposed := c.transposed.constant?
          groups := c.groups.constant? }
  | trilinear t =>
      .trilinear
        { expand := t.expand.map Attr.constant?
          sumDim := t.sumDim.constant?
          unrollDim := t.unrollDim.constant? }
  | flip p => .flip p.dims.constant?

variable {op op' : HostOp}

@[simp] theorem form_mapOperands (f : ValueId → ValueId) (op : HostOp) :
    (op.mapOperands f).form = op.form := by
  cases op with
  | mm b | matmul b | bmm b => rfl
  | convolution c => simp [form, mapOperands]
  | trilinear t => simp [form, mapOperands, Triple.map]
  | flip p => simp [form, mapOperands]

theorem convolution_eq_of_form {c c' : Convolution}
    (hform : (convolution c).form = (convolution c').form)
    (h : (convolution c).operands = (convolution c').operands) : c = c' := by
  obtain ⟨input, weight, bias, stride, padding, dilation, outputPadding, transposed, groups⟩ := c
  obtain ⟨input', weight', bias', stride', padding', dilation', outputPadding', transposed',
    groups'⟩ := c'
  simp only [form, Form.convolution.injEq, Convolution.Form.mk.injEq] at hform
  obtain ⟨hbias, hstride, hpadding, hdilation, houtput, htransposed, hgroups⟩ := hform
  simp only [operands, List.append_assoc, List.cons_append, List.nil_append, List.cons.injEq] at h
  obtain ⟨hinput, hweight, h⟩ := h
  obtain ⟨hbias, h⟩ := eq_of_toList_append hbias h
  obtain ⟨hstride, h⟩ := Attr.eq_of_append hstride h
  obtain ⟨hpadding, h⟩ := Attr.eq_of_append hpadding h
  obtain ⟨hdilation, h⟩ := Attr.eq_of_append hdilation h
  obtain ⟨houtput, h⟩ := Attr.eq_of_append houtput h
  obtain ⟨htransposed, h⟩ := Attr.eq_of_append htransposed h
  have hgroups := Attr.eq_of_operands hgroups h
  subst hinput hweight hbias hstride hpadding hdilation houtput htransposed hgroups
  rfl

theorem trilinear_eq_of_form {t t' : Trilinear}
    (hform : (trilinear t).form = (trilinear t').form)
    (h : (trilinear t).operands = (trilinear t').operands) : t = t' := by
  obtain ⟨⟨i, j, k⟩, ⟨a, b, c⟩, sums, unrolled⟩ := t
  obtain ⟨⟨i', j', k'⟩, ⟨a', b', c'⟩, sums', unrolled'⟩ := t'
  simp only [form, Form.trilinear.injEq, Trilinear.Form.mk.injEq, Triple.map, Triple.mk.injEq]
    at hform
  obtain ⟨⟨ha, hb, hc⟩, hsums, hunrolled⟩ := hform
  simp only [operands, Triple.toList, List.flatMap_cons, List.flatMap_nil, List.append_nil,
    List.append_assoc, List.cons_append, List.nil_append, List.cons.injEq] at h
  obtain ⟨hi, hj, hk, h⟩ := h
  obtain ⟨ha, h⟩ := Attr.eq_of_append ha h
  obtain ⟨hb, h⟩ := Attr.eq_of_append hb h
  obtain ⟨hc, h⟩ := Attr.eq_of_append hc h
  obtain ⟨hsums, h⟩ := Attr.eq_of_append hsums h
  have hunrolled := Attr.eq_of_operands hunrolled h
  subst hi hj hk ha hb hc hsums hunrolled
  rfl

/-- A host operator is its form and the values that it reads. -/
theorem eq_of_form (hform : op.form = op'.form) (h : op.operands = op'.operands) : op = op' := by
  cases op with
  | mm b | matmul b | bmm b =>
      obtain ⟨lhs, rhs⟩ := b
      cases op' <;> cases hform
      cases h
      rfl
  | convolution c =>
      cases op' with
      | convolution c' => exact congrArg convolution (convolution_eq_of_form hform h)
      | _ => cases hform
  | trilinear t =>
      cases op' with
      | trilinear t' => exact congrArg trilinear (trilinear_eq_of_form hform h)
      | _ => cases hform
  | flip p =>
      cases op' with
      | flip p' =>
          obtain ⟨input, dims⟩ := p
          obtain ⟨input', dims'⟩ := p'
          obtain ⟨hinput, h⟩ := List.cons.inj h
          have hdims := Attr.eq_of_operands (Form.flip.inj hform) h
          subst hinput hdims
          rfl
      | _ => cases hform

end HostOp

/-! ## Operations -/

inductive GuardCond.Form where
  | equal
  | divisible
  | broadcastable
  deriving DecidableEq

inductive Op.Form where
  | input (name : String)
  | constant (value : Scalar)
  | makeQuantized (scale : Numeric.Binary64)
  | host (form : HostOp.Form)
  | dim (axis : Nat)
  | arith (op : ArithOp)
  | scalarCast
  | guard (cond : GuardCond.Form) (message : String)
  | fill
  | broadcast (added : List Nat)
  | broadcastTo
  | transpose (perm : Permutation)
  | flip (axes : List Nat)
  | expandShape (groups : Reassociation)
  | collapseShape (groups : Reassociation)
  | pad (low high : List Int)
  | insertSlice (strides : List Int)
  | narrow (axis : Nat) (start : Int) (len : Nat)
  | squeeze (axis : Nat)
  | unsqueeze (axis : Nat)
  | elementwise (op : ElementwiseOp)
  | sum (axis : Nat)
  | convert
  | cast
  | reduce (spec : ReductionSpec) (zeroPoints : Bool)
  deriving DecidableEq

namespace GuardCond

def form : GuardCond → Form
  | equal _ _ => .equal
  | divisible _ _ => .divisible
  | broadcastable _ _ => .broadcastable

variable {c c' : GuardCond}

@[simp] theorem form_mapOperands (f : ValueId → ValueId) (c : GuardCond) :
    (c.mapOperands f).form = c.form := by
  cases c <;> rfl

theorem eq_of_form (hform : c.form = c'.form) (h : c.operands = c'.operands) : c = c' := by
  cases c <;> cases c' <;> cases hform <;> cases h <;> rfl

end GuardCond

namespace Op

def form : Op → Form
  | input name => .input name
  | constant value => .constant value
  | makeQuantized _ scale _ => .makeQuantized scale
  | host op => .host op.form
  | dim _ axis => .dim axis
  | arith op _ _ => .arith op
  | scalarCast _ => .scalarCast
  | guard g => .guard g.cond.form g.message
  | fill _ _ => .fill
  | broadcast _ _ added => .broadcast added
  | broadcastTo _ _ => .broadcastTo
  | transpose _ perm => .transpose perm
  | flip _ axes => .flip axes
  | expandShape _ groups _ => .expandShape groups
  | collapseShape _ groups => .collapseShape groups
  | pad _ low high _ => .pad low high
  | insertSlice _ _ _ strides => .insertSlice strides
  | narrow _ axis start len => .narrow axis start len
  | squeeze _ axis => .squeeze axis
  | unsqueeze _ axis => .unsqueeze axis
  | elementwise op _ _ => .elementwise op
  | sum _ axis => .sum axis
  | convert _ => .convert
  | cast _ => .cast
  | reduce spec _ _ zeroPoints _ => .reduce spec zeroPoints.isSome

variable {op op' : Op}

theorem form_mapOperands (f : ValueId → ValueId) (op : Op) :
    (op.mapOperands f).form = op.form := by
  cases op with
  | host op => exact congrArg Form.host (op.form_mapOperands f)
  | guard g => exact congrArg (Form.guard · g.message) (g.cond.form_mapOperands f)
  | reduce spec lhs rhs zeroPoints init => exact congrArg (Form.reduce spec) Option.isSome_map
  | _ => rfl

/-- An operation is its form and the values that it reads. -/
theorem eq_of_form (hform : op.form = op'.form) (h : op.operands = op'.operands) : op = op' := by
  cases op with
  | host op =>
      cases op' with
      | host op' => exact congrArg host (HostOp.eq_of_form (Form.host.inj hform) h)
      | _ => cases hform
  | guard g =>
      cases op' with
      | guard g' =>
          obtain ⟨cond, message⟩ := g
          obtain ⟨cond', message'⟩ := g'
          obtain ⟨hcond, hmessage⟩ := Form.guard.inj hform
          have hcond : cond = cond' := GuardCond.eq_of_form hcond h
          subst hcond hmessage
          rfl
      | _ => cases hform
  | fill sizes value =>
      cases op' with
      | fill sizes' value' =>
          obtain ⟨rfl, hvalue⟩ := List.append_inj' h rfl
          cases hvalue
          rfl
      | _ => cases hform
  | reduce spec lhs rhs zeroPoints init =>
      cases op' with
      | reduce spec' lhs' rhs' zeroPoints' init' =>
          obtain ⟨rfl, hsome⟩ := Form.reduce.inj hform
          rcases zeroPoints with _ | ⟨za, zb⟩ <;> rcases zeroPoints' with _ | ⟨za', zb'⟩ <;>
            cases hsome <;> cases h <;> rfl
      | _ => cases hform
  | _ =>
      cases op' <;> cases hform
      cases h
      rfl

end Op

end TensorLowering
