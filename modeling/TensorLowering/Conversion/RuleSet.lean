import TensorLowering.Lowering.Convolution.Rule
import TensorLowering.Lowering.Flip
import TensorLowering.Lowering.MatrixProduct.Rules
import TensorLowering.Lowering.Trilinear
import TensorLowering.Text

/-!
# Rule sets and targets

A rule set lists rules in the order in which they are tried. A target names the kinds of operators
that a conversion has to lower; the others may stay.
-/
namespace TensorLowering

structure RuleSet where
  rules : List Rule

namespace RuleSet

def empty : RuleSet := ⟨[]⟩

def add (s : RuleSet) (rule : Rule) : RuleSet := ⟨s.rules ++ [rule]⟩

def size (s : RuleSet) : Nat := s.rules.length

def isEmpty (s : RuleSet) : Bool := s.rules.isEmpty

/-- The rules for one kind of operator, in order. -/
def rulesFor (s : RuleSet) (kind : HostKind) : List Rule := s.rules.filter (·.kind = kind)

/-- The names of all rules in ascending order. -/
def describe (s : RuleSet) : String :=
  let names := (s.rules.map Rule.name).mergeSort fun a b => decide (a ≤ b)
  "RuleSet \x7b rules: " ++ Text.bracketed (names.map fun name => "\"" ++ name ++ "\"") ++ " \x7d"

/-- One rule for each kind of operator. -/
def standard : RuleSet :=
  ⟨[.mm, .flip, .matmul, .bmm, .convolution, .trilinear]⟩

variable {rule rule' : Rule} {config : LoweringConfig} {op : HostOp} {result : TensorType}

theorem exists_rulesFor (kind : HostKind) : ∃ rule, standard.rulesFor kind = [rule] := by
  cases kind <;> exact ⟨_, rfl⟩

theorem eq_of_kind_eq (hrule : rule ∈ standard.rules) (hrule' : rule' ∈ standard.rules)
    (hkind : rule.kind = rule'.kind) : rule = rule' := by
  obtain ⟨only, honly⟩ := exists_rulesFor rule.kind
  have heq : ∀ r ∈ standard.rules, r.kind = rule.kind → r = only := fun r hr hkind =>
    List.mem_singleton.1 (honly ▸ List.mem_filter.2 ⟨hr, decide_eq_true hkind⟩)
  exact (heq rule hrule rfl).trans (heq rule' hrule' hkind.symm).symm

/-- A standard rule leaves operators of other kinds to other rules. -/
theorem apply_eq_decline (hrule : rule ∈ standard.rules) (hkind : rule.kind ≠ op.kind) :
    rule.apply config op result = Build.decline (.otherKind rule.kind) := by
  simp only [standard, List.mem_cons, List.not_mem_nil, or_false] at hrule
  rcases hrule with rfl | rfl | rfl | rfl | rfl | rfl
  · cases op with
    | mm => exact absurd rfl hkind
    | _ => rfl
  · cases op with
    | flip => exact absurd rfl hkind
    | _ => rfl
  · cases op with
    | matmul => exact absurd rfl hkind
    | _ => rfl
  · cases op with
    | bmm => exact absurd rfl hkind
    | _ => rfl
  · cases op with
    | convolution => exact absurd rfl hkind
    | _ => rfl
  · cases op with
    | trilinear => exact absurd rfl hkind
    | _ => rfl

end RuleSet

structure ConversionTarget where
  illegal : List HostKind

namespace ConversionTarget

def empty : ConversionTarget := ⟨[]⟩

def addIllegal (t : ConversionTarget) (kind : HostKind) : ConversionTarget := ⟨t.illegal ++ [kind]⟩

/-- Operators of this kind may stay. -/
def isLegal (t : ConversionTarget) (kind : HostKind) : Bool := !t.illegal.contains kind

/-- No operator may stay. -/
def standard : ConversionTarget := ⟨HostKind.all⟩

end ConversionTarget

end TensorLowering
