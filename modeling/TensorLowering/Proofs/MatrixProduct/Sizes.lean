import TensorLowering.Lowering.MatrixProduct.Form
import TensorLowering.Proofs.NdArray.Stretching
import TensorLowering.Proofs.NdArray.Tensors
import TensorLowering.Proofs.Reduction.Sums

/-!
# Products of vectors and matrices, element by element

What a matrix product means, apart from any lowering of it. The last axis of the left operand is
summed against the last but one of the right operand, or its only one; the axes before the last two
are batch axes, which stretch.
-/
namespace TensorLowering

open Numeric NdArray

/-- Sizes of two operands that have a product. A vector on the left has no rows and a vector on the
right has no columns; neither is part of a batch. -/
structure ProductSizes where
  lhsBatch : List Nat
  rhsBatch : List Nat
  batch : List Nat
  rows : Option Nat
  inner : Nat
  columns : Option Nat
  common : broadcastShape lhsBatch rhsBatch = .ok batch
  vector : rows = none ∨ columns = none → lhsBatch = [] ∧ rhsBatch = []

namespace ProductSizes

/-- The sizes of two matrices. -/
def ofMatrices (rows inner columns : Nat) : ProductSizes :=
  ⟨[], [], [], some rows, inner, some columns, rfl, nofun⟩

/-- The sizes of a product without a batch. -/
def unbatched (rows : Option Nat) (inner : Nat) (columns : Option Nat) : ProductSizes :=
  ⟨[], [], [], rows, inner, columns, rfl, fun _ => ⟨rfl, rfl⟩⟩

def lhs (p : ProductSizes) : List Nat := p.lhsBatch ++ (p.rows.toList ++ [p.inner])

def rhs (p : ProductSizes) : List Nat := p.rhsBatch ++ (p.inner :: p.columns.toList)

def out (p : ProductSizes) : List Nat := p.batch ++ (p.rows.toList ++ p.columns.toList)

/-- The sum at a position of the product, from zero on and in ascending order. An operand is read at
position zero of a batch axis on which it has size one. -/
def sum (p : ProductSizes) (x y : List Nat → Binary64) (ix : List Nat) : Binary64 :=
  let batch := ix.take p.batch.length
  let row := (ix.drop p.batch.length).take p.rows.toList.length
  let column := (ix.drop p.batch.length).drop p.rows.toList.length
  (List.range p.inner).foldl (fun sum k =>
    sum + x (alignIndex p.lhsBatch batch ++ (row ++ [k])) *
      y (alignIndex p.rhsBatch batch ++ (k :: column))) 0

/-- The product of two tensors with the sums rounded to the accumulator type. -/
def product (p : ProductSizes) (cast : CastKind) (accumulator : DType) (a b : Tensor) : Tensor :=
  .ofEntries accumulator p.out
    (p.sum (fun ix => cast.extend a.dtype (a.entry ix)) fun ix => cast.extend b.dtype (b.entry ix))

/-- The stretched operands and the product are not too large. -/
structure Fits (p : ProductSizes) : Prop where
  lhs : ¬ TooLarge (p.batch ++ (p.rows.toList ++ [p.inner]))
  rhs : ¬ TooLarge (p.batch ++ (p.inner :: p.columns.toList))
  out : ¬ TooLarge p.out

/-- The sizes that tensors are made with are read back from doubles: those of the product and, for a
batch, the summed one and the number of products. -/
structure Exact (p : ProductSizes) : Prop where
  out : ∀ n ∈ p.out, Binary64.IsExact n
  inner : p.batch ≠ [] → Binary64.IsExact p.inner
  batch : Binary64.IsExact (volume p.batch)

theorem batch_eq_nil (p : ProductSizes) (hl : p.lhsBatch = []) (hr : p.rhsBatch = []) :
    p.batch = [] := by
  have hcommon := p.common
  rw [hl, hr] at hcommon
  exact (Except.ok.inj hcommon).symm

/-- A batch has as many axes as the longer of those of the operands. -/
theorem nil_of_batch (p : ProductSizes) (hbatch : p.batch = []) :
    p.lhsBatch = [] ∧ p.rhsBatch = [] := by
  obtain ⟨hl, hr⟩ := stretchesTo_broadcastShape p.common
  rw [hbatch] at hl hr
  exact ⟨List.length_eq_zero_iff.1 (Nat.le_zero.1 hl.1),
    List.length_eq_zero_iff.1 (Nat.le_zero.1 hr.1)⟩

/-- The product of two factors, each given by its elements. -/
def products (p : ProductSizes) (accumulator : DType) (x y : List Nat → Binary64) : Tensor :=
  .ofEntries accumulator p.out (p.sum x y)

@[simp] theorem shape_products (p : ProductSizes) (accumulator : DType)
    (x y : List Nat → Binary64) : (p.products accumulator x y).shape = p.out := rfl

theorem entry_products {p : ProductSizes} {accumulator : DType} {x y : List Nat → Binary64}
    {ix : List Nat} (h : InBounds p.out ix) :
    (p.products accumulator x y).entry ix = accumulator.round (p.sum x y ix) :=
  Tensor.entry_ofEntries h

/-- Without a batch, factors are read at a row, a column and a position of the summed axis. -/
theorem products_unbatched (p : ProductSizes) (hl : p.lhsBatch = []) (hr : p.rhsBatch = [])
    (accumulator : DType) (x y : List Nat → Binary64) :
    p.products accumulator x y =
      .ofEntries accumulator (p.rows.toList ++ p.columns.toList) fun ix =>
        addTerms (fun k => x (ix.take p.rows.toList.length ++ k) *
          y (k ++ ix.drop p.rows.toList.length)) (points [p.inner]) 0 := by
  have hbatch := p.batch_eq_nil hl hr
  have hout : p.out = p.rows.toList ++ p.columns.toList := by rw [out, hbatch, List.nil_append]
  rw [products, hout]
  refine Tensor.ofEntries_congr fun ix hix => ?_
  rw [points_singleton, addTerms, List.foldl_map]
  simp [sum, hbatch, hl, hr, alignIndex, aligned]

theorem sum_append (p : ProductSizes) (x y : List Nat → Binary64) {batch row column : List Nat}
    (hbatch : batch.length = p.batch.length) (hrow : row.length = p.rows.toList.length) :
    p.sum x y (batch ++ (row ++ column)) =
      (List.range p.inner).foldl (fun sum k =>
        sum + x (alignIndex p.lhsBatch batch ++ (row ++ [k])) *
          y (alignIndex p.rhsBatch batch ++ (k :: column))) 0 := by
  have hdrop : (batch ++ (row ++ column)).drop p.batch.length = row ++ column := by
    rw [← hbatch, List.drop_left]
  have htake : (batch ++ (row ++ column)).take p.batch.length = batch := by
    rw [← hbatch, List.take_left]
  simp only [sum, hdrop, htake, ← hrow, List.take_left, List.drop_left]

/-- The form that the sizes have. -/
def form (p : ProductSizes) : ProductForm :=
  match p.rows, p.columns with
  | none, none => .dot
  | none, some _ => .vecmat
  | some _, none => .matvec
  | some _, some _ =>
      if p.lhsBatch = [] ∧ p.rhsBatch = [] then .matmul
      else .batched (max p.lhsBatch.length p.rhsBatch.length)

theorem hasVector_form (p : ProductSizes) :
    p.form.hasVector = true ↔ p.rows = none ∨ p.columns = none := by
  rw [form]
  cases p.rows with
  | none => cases p.columns <;> simp [ProductForm.hasVector]
  | some m =>
      cases p.columns with
      | none => simp [ProductForm.hasVector]
      | some n => by_cases hnil : p.lhsBatch = [] ∧ p.rhsBatch = [] <;>
          simp [ProductForm.hasVector, hnil]

theorem ofRanks?_eq_form (p : ProductSizes) :
    ProductForm.ofRanks? p.lhs.length p.rhs.length = some p.form := by
  have hvector := p.vector
  cases hrows : p.rows with
  | none =>
      obtain ⟨hl, hr⟩ := hvector (.inl hrows)
      cases hcolumns : p.columns <;> simp [lhs, rhs, form, hrows, hcolumns, hl, hr] <;> rfl
  | some m =>
      cases hcolumns : p.columns with
      | none =>
          obtain ⟨hl, hr⟩ := hvector (.inr hcolumns)
          simp [lhs, rhs, form, hrows, hcolumns, hl, hr]
          rfl
      | some n =>
          have hlhs : p.lhs.length = p.lhsBatch.length + 2 := by simp [lhs, hrows]
          have hrhs : p.rhs.length = p.rhsBatch.length + 2 := by simp [rhs, hcolumns]
          have hnil : ∀ xs : List Nat, xs = [] ↔ xs.length = 0 := fun _ =>
            List.length_eq_zero_iff.symm
          simp only [hlhs, hrhs, form, hrows, hcolumns, hnil]
          cases p.lhsBatch.length with
          | zero =>
              cases p.rhsBatch.length with
              | zero => rfl
              | succ k => simp [ProductForm.ofRanks?]
          | succ k => simp [ProductForm.ofRanks?, Nat.succ_max_succ]

/-- Two operands with two axes are matrices. -/
theorem exists_matrices (p : ProductSizes) (hlhs : p.lhs.length = 2) (hrhs : p.rhs.length = 2) :
    ∃ m n, p.lhsBatch = [] ∧ p.rhsBatch = [] ∧ p.rows = some m ∧ p.columns = some n := by
  have hvector := p.vector
  simp only [lhs, rhs, List.length_append, List.length_cons] at hlhs hrhs
  cases hrows : p.rows with
  | none =>
      obtain ⟨hl, -⟩ := hvector (.inl hrows)
      simp [hl, hrows] at hlhs
  | some m =>
      cases hcolumns : p.columns with
      | none =>
          obtain ⟨-, hr⟩ := hvector (.inr hcolumns)
          simp [hr, hcolumns] at hrhs
      | some n =>
          simp only [hrows, hcolumns, Option.toList_some, List.length_singleton, List.length_nil]
            at hlhs hrhs
          exact ⟨m, n, List.length_eq_zero_iff.1 (by omega), List.length_eq_zero_iff.1 (by omega),
            rfl, rfl⟩

/-- A shape with two axes at least ends in a matrix. -/
theorem exists_matrix {shape : List Nat} (h : 2 ≤ shape.length) :
    ∃ batch m n, shape = batch ++ [m, n] := by
  have htwo : (shape.drop (shape.length - 2)).length = 2 := by
    rw [List.length_drop]
    omega
  obtain ⟨m, n, hmn⟩ := List.length_eq_two.1 htwo
  exact ⟨shape.take (shape.length - 2), m, n, by rw [← hmn, List.take_append_drop]⟩

/-- The operands that have a form: a vector with a vector or a matrix, two matrices, or matrices of
which one has a batch. The summed sizes may differ. -/
theorem cases_of_form {lhs rhs : List Nat} {form : ProductForm}
    (h : ProductForm.ofRanks? lhs.length rhs.length = some form) :
    (∃ rows columns k k', (rows = none ∨ columns = none) ∧ lhs = rows.toList ++ [k] ∧
      rhs = k' :: columns.toList ∧ form = (unbatched rows k columns).form) ∨
    (∃ m k k' n, lhs = [m, k] ∧ rhs = [k', n] ∧ form = .matmul) ∨
    ∃ lb rb m k k' n, lhs = lb ++ [m, k] ∧ rhs = rb ++ [k', n] ∧ ¬ (lb = [] ∧ rb = []) ∧
      form = .batched (max lb.length rb.length) := by
  unfold ProductForm.ofRanks? at h
  split at h
  next hl hr =>
    obtain ⟨k, rfl⟩ := List.length_eq_one_iff.1 hl
    obtain ⟨k', rfl⟩ := List.length_eq_one_iff.1 hr
    exact .inl ⟨none, none, k, k', .inl rfl, rfl, rfl, (Option.some.inj h).symm⟩
  next hl hr =>
    obtain ⟨k, rfl⟩ := List.length_eq_one_iff.1 hl
    obtain ⟨k', n, rfl⟩ := List.length_eq_two.1 hr
    exact .inl ⟨none, some n, k, k', .inl rfl, rfl, rfl, (Option.some.inj h).symm⟩
  next hl hr =>
    obtain ⟨m, k, rfl⟩ := List.length_eq_two.1 hl
    obtain ⟨k', rfl⟩ := List.length_eq_one_iff.1 hr
    exact .inl ⟨some m, none, k, k', .inr rfl, rfl, rfl, (Option.some.inj h).symm⟩
  next hl hr =>
    obtain ⟨m, k, rfl⟩ := List.length_eq_two.1 hl
    obtain ⟨k', n, rfl⟩ := List.length_eq_two.1 hr
    exact .inr (.inl ⟨m, k, k', n, rfl, rfl, (Option.some.inj h).symm⟩)
  next hne =>
    split at h
    next hranks =>
      obtain ⟨lb, m, k, rfl⟩ := exists_matrix hranks.1
      obtain ⟨rb, k', n, rfl⟩ := exists_matrix hranks.2
      refine .inr (.inr ⟨lb, rb, m, k, k', n, rfl, rfl, ?_, ?_⟩)
      · rintro ⟨rfl, rfl⟩
        exact hne rfl rfl
      · simpa [eq_comm, Nat.add_max_add_right] using h
    next => cases h

/-- Operands of any ranks that have a form, with equal summed sizes and batches that stretch to
common sizes, have a product. -/
theorem exists_of_form {lhs rhs batch : List Nat} {form : ProductForm}
    (hform : ProductForm.ofRanks? lhs.length rhs.length = some form)
    (hinner : lhs.getLast? = rhs[rhs.length - 2]?)
    (hbatch : broadcastShape (lhs.take (lhs.length - 2)) (rhs.take (rhs.length - 2)) = .ok batch) :
    ∃ p : ProductSizes, p.lhs = lhs ∧ p.rhs = rhs ∧ p.batch = batch := by
  have hmatrices : ∀ (lb rb : List Nat) {m k k' n : Nat}, lhs = lb ++ [m, k] →
      rhs = rb ++ [k', n] → ∃ p : ProductSizes, p.lhs = lhs ∧ p.rhs = rhs ∧ p.batch = batch := by
    rintro lb rb m k k' n rfl rfl
    obtain rfl : k = k' := by simpa using hinner
    exact ⟨⟨lb, rb, batch, some m, k, some n, by simpa using hbatch, by simp⟩, rfl, rfl, rfl⟩
  rcases cases_of_form hform with
    ⟨rows, columns, k, k', hvector, rfl, rfl, -⟩ | ⟨m, k, k', n, hl, hr, -⟩ |
      ⟨lb, rb, m, k, k', n, hl, hr, -, -⟩
  · obtain rfl : k = k' := by
      rcases hvector with rfl | rfl
      · cases columns <;> simpa using hinner
      · simpa using hinner
    have hbatch' : broadcastShape [] [] = .ok batch := by
      cases rows <;> cases columns <;> simpa using hbatch
    exact ⟨⟨[], [], batch, rows, k, columns, hbatch', fun _ => ⟨rfl, rfl⟩⟩, rfl, rfl, rfl⟩
  · exact hmatrices [] [] hl hr
  · exact hmatrices lb rb hl hr

/-! ## Which operands have a product -/

/-- The last axis of the left operand and the last but one of the right, or its only one, have one
size. -/
def SumsMeet (left right : List Nat) : Prop := left.getLast? = right[right.length - 2]?

/-- All axes but the last two stretch to common sizes. -/
def BatchesMeet (left right : List Nat) : Prop :=
  ∃ batch, broadcastShape (left.take (left.length - 2)) (right.take (right.length - 2)) = .ok batch

theorem getLast?_lhs (p : ProductSizes) : p.lhs.getLast? = some p.inner := by
  simp [lhs]

theorem getElem?_rhs (p : ProductSizes) : p.rhs[p.rhs.length - 2]? = some p.inner := by
  have hvector := p.vector
  cases hcolumns : p.columns with
  | none =>
      obtain ⟨-, hr⟩ := hvector (.inr hcolumns)
      simp [rhs, hcolumns, hr]
  | some n => simp [rhs, hcolumns]

theorem take_lhs (p : ProductSizes) : p.lhs.take (p.lhs.length - 2) = p.lhsBatch := by
  have hvector := p.vector
  cases hrows : p.rows with
  | none =>
      obtain ⟨hl, -⟩ := hvector (.inl hrows)
      simp [lhs, hrows, hl]
  | some m => simp [lhs, hrows]

theorem take_rhs (p : ProductSizes) : p.rhs.take (p.rhs.length - 2) = p.rhsBatch := by
  have hvector := p.vector
  cases hcolumns : p.columns with
  | none =>
      obtain ⟨-, hr⟩ := hvector (.inr hcolumns)
      simp [rhs, hcolumns, hr]
  | some n => simp [rhs, hcolumns]

theorem sumsMeet (p : ProductSizes) : SumsMeet p.lhs p.rhs :=
  p.getLast?_lhs.trans p.getElem?_rhs.symm

theorem batchesMeet (p : ProductSizes) : BatchesMeet p.lhs p.rhs :=
  ⟨p.batch, by rw [take_lhs, take_rhs, p.common]⟩

/-- The sizes of a product are those of its operands. -/
theorem eq_of_operands {p q : ProductSizes} (hlhs : p.lhs = q.lhs) (hrhs : p.rhs = q.rhs) :
    p = q := by
  have htoList : ∀ {x y : Option Nat}, x.toList = y.toList → x = y := by
    intro x y h
    simpa using congrArg List.head? h
  have hlbatch : p.lhsBatch = q.lhsBatch := by rw [← take_lhs, ← take_lhs, hlhs]
  have hrbatch : p.rhsBatch = q.rhsBatch := by rw [← take_rhs, ← take_rhs, hrhs]
  have hbatch : p.batch = q.batch := by
    have hcommon := p.common
    rw [hlbatch, hrbatch, q.common] at hcommon
    exact (Except.ok.inj hcommon).symm
  have hinner : p.inner = q.inner := by
    have hlast := p.getLast?_lhs
    rw [hlhs, q.getLast?_lhs] at hlast
    exact (Option.some.inj hlast).symm
  have hrows : p.rows = q.rows := by
    rw [lhs, lhs, hlbatch, hinner, List.append_right_inj, List.append_left_inj] at hlhs
    exact htoList hlhs
  have hcolumns : p.columns = q.columns := by
    rw [rhs, rhs, hrbatch, hinner, List.append_right_inj, List.cons_inj_right] at hrhs
    exact htoList hrhs
  cases p
  cases q
  cases hlbatch
  cases hrbatch
  cases hbatch
  cases hinner
  cases hrows
  cases hcolumns
  rfl

/-- Operands whose ranks have a form have a product exactly if the summed sizes are equal and the
batches stretch to common sizes. -/
theorem exists_iff {lhs rhs : List Nat} {form : ProductForm}
    (hform : ProductForm.ofRanks? lhs.length rhs.length = some form) :
    (∃ p : ProductSizes, p.lhs = lhs ∧ p.rhs = rhs) ↔ SumsMeet lhs rhs ∧ BatchesMeet lhs rhs := by
  constructor
  · rintro ⟨p, rfl, rfl⟩
    exact ⟨p.sumsMeet, p.batchesMeet⟩
  · rintro ⟨hinner, batch, hbatch⟩
    obtain ⟨p, hl, hr, -⟩ := exists_of_form hform hinner hbatch
    exact ⟨p, hl, hr⟩

end ProductSizes

end TensorLowering
