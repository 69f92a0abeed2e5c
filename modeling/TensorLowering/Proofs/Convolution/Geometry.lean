import TensorLowering.HostOp.Geometry
import TensorLowering.Proofs.Evaluation.Runs
import TensorLowering.Proofs.NdArray.Reads
import TensorLowering.Proofs.Reduction.Windows

/-!
# Windows of a geometry

The attributes of a convolution have one entry per spatial axis. With the output sizes of a standard
convolution, every window lies within the padded input.
-/
namespace TensorLowering

open NdArray

namespace ConvGeometry

/-- Every list has one entry per spatial axis, in its range. -/
structure Valid (geo : ConvGeometry) (spatialRank : Nat) : Prop where
  stride : geo.stride.length = spatialRank
  dilation : geo.dilation.length = spatialRank
  padding : geo.padding.length = spatialRank
  outputPadding : geo.outputPadding.length = spatialRank
  stride_pos : ∀ n ∈ geo.stride, 1 ≤ n
  dilation_pos : ∀ n ∈ geo.dilation, 1 ≤ n
  padding_nonneg : ∀ n ∈ geo.padding, 0 ≤ n
  outputPadding_nonneg : ∀ n ∈ geo.outputPadding, 0 ≤ n
  groups_pos : 1 ≤ geo.groups

theorem entries_eq_ok {name : String} {a : Attr (List Int)} {s : Nat} {least : Int}
    {values : List Int} (h : entries name a s least = .ok values) :
    values.length = s ∧ ∀ n ∈ values, least ≤ n := by
  unfold entries at h
  cases a with
  | dynamic v => cases h
  | const xs =>
      simp only [constant, bind, Except.bind] at h
      split at h
      next => cases h
      next hlen =>
        split at h
        next => cases h
        next hfind =>
          cases h
          refine ⟨not_not.1 hlen, fun n hn => ?_⟩
          have hnot := List.find?_eq_none.1 hfind n hn
          simpa using hnot

variable {op : Convolution} {geo : ConvGeometry} {s : Nat}

theorem valid_of_ofConvolution (h : ofConvolution op s = .ok geo) : geo.Valid s := by
  unfold ofConvolution at h
  obtain ⟨transposed, -, h⟩ := Except.bind_eq_ok.1 h
  obtain ⟨stride, hstride, h⟩ := Except.bind_eq_ok.1 h
  obtain ⟨dilation, hdilation, h⟩ := Except.bind_eq_ok.1 h
  obtain ⟨padding, hpadding, h⟩ := Except.bind_eq_ok.1 h
  obtain ⟨outputPadding, houtput, h⟩ := Except.bind_eq_ok.1 h
  obtain ⟨groups, -, h⟩ := Except.bind_eq_ok.1 h
  dsimp only at h
  split at h
  next => cases h
  next hgroups =>
    cases h
    obtain ⟨hs, hs'⟩ := entries_eq_ok hstride
    obtain ⟨hd, hd'⟩ := entries_eq_ok hdilation
    obtain ⟨hp, hp'⟩ := entries_eq_ok hpadding
    obtain ⟨ho, ho'⟩ := entries_eq_ok houtput
    exact ⟨hs, hd, hp, ho, hs', hd', hp', ho', Int.not_lt.1 hgroups⟩

theorem spatialRank_of_valid (h : geo.Valid s) : geo.spatialRank = s := h.stride

/-- The axes have the entries of the lists. -/
theorem axes_eq (h : geo.Valid s) : geo.axes = (List.range s).map fun i =>
    ⟨geo.padding.getD i 0, geo.stride.getD i 0, geo.dilation.getD i 0, geo.outputPadding.getD i 0,
      geo.transposed⟩ := by
  have hrank := spatialRank_of_valid h
  rw [axes, hrank, ← List.filterMap_eq_map]
  refine List.filterMap_congr fun i hi => ?_
  have hlt := List.mem_range.1 hi
  have hp : i < geo.padding.length := h.padding ▸ hlt
  have hs : i < geo.stride.length := h.stride ▸ hlt
  have hd : i < geo.dilation.length := h.dilation ▸ hlt
  have ho : i < geo.outputPadding.length := h.outputPadding ▸ hlt
  simp [axis?, hp, hs, hd, ho]

theorem map_getD_range {α : Type} {xs : List α} (d : α) (h : xs.length = s) :
    (List.range s).map (xs.getD · d) = xs := by
  subst h
  refine List.ext_getElem (by simp) fun i hi hi' => ?_
  simp [hi']

theorem padding_eq (h : geo.Valid s) : geo.padding = geo.axes.map (·.padding) := by
  rw [axes_eq h, List.map_map]
  exact (map_getD_range 0 h.padding).symm

theorem stride_eq (h : geo.Valid s) : geo.stride = geo.axes.map (·.stride) := by
  rw [axes_eq h, List.map_map]
  exact (map_getD_range 0 h.stride).symm

theorem dilation_eq (h : geo.Valid s) : geo.dilation = geo.axes.map (·.dilation) := by
  rw [axes_eq h, List.map_map]
  exact (map_getD_range 0 h.dilation).symm

theorem length_axes (h : geo.Valid s) : geo.axes.length = s := by
  rw [axes_eq h]
  simp

/-- The entries of an axis are in their ranges. -/
theorem axis_valid (h : geo.Valid s) {g : AxisGeometry} (hg : g ∈ geo.axes) :
    g.transposed = geo.transposed ∧ 0 ≤ g.padding ∧ 1 ≤ g.stride ∧ 1 ≤ g.dilation ∧
      0 ≤ g.outputPadding := by
  rw [axes_eq h, List.mem_map] at hg
  obtain ⟨i, hi, rfl⟩ := hg
  have hlt := List.mem_range.1 hi
  have hget : ∀ {xs : List Int} {least : Int}, xs.length = s → (∀ n ∈ xs, least ≤ n) →
      least ≤ xs.getD i 0 := by
    intro xs least hlen hall
    have hlt' : i < xs.length := hlen ▸ hlt
    simpa [hlt'] using hall _ (List.getElem_mem hlt')
  exact ⟨rfl, hget h.padding h.padding_nonneg, hget h.stride h.stride_pos,
    hget h.dilation h.dilation_pos, hget h.outputPadding h.outputPadding_nonneg⟩

/-- The output sizes, when there are some along every axis. -/
def outputs? (geo : ConvGeometry) (input kernel : List Nat) : Option (List Nat) :=
  (geo.axes.zip (input.zip kernel)).mapM fun axis =>
    (axis.1.outputSize? axis.2.1 axis.2.2).map Int.toNat

/-- The strides and dilations by which windows move. -/
def steps (geo : ConvGeometry) : List (Int × Int) := geo.stride.zip geo.dilation

/-- Where the input is read for a position of the output and one of the kernel. -/
def reads (geo : ConvGeometry) (o k : List Nat) : List Int :=
  List.zipWith (fun edge at_ => at_ - edge) geo.padding (meeting geo.steps o k)

theorem steps_eq (h : geo.Valid s) : geo.steps = geo.axes.map fun g => (g.stride, g.dilation) := by
  rw [steps, stride_eq h, dilation_eq h, List.zip_map']

end ConvGeometry

theorem AxisGeometry.outputSize?_pos {g : AxisGeometry} {n k size : Int}
    (h : g.outputSize? n k = some size) : 0 < size := by
  unfold outputSize? at h
  split at h
  · unfold convTransposeOutputSize? at h
    dsimp only at h
    split at h
    next hpos =>
      cases h
      exact hpos
    next => cases h
  · unfold convOutputSize? at h
    split at h
    next => cases h
    next =>
      dsimp only at h
      split at h
      next hpos =>
        cases h
        exact hpos
      next => cases h

/-! ## Windows of a standard convolution -/

/-- The last window of an axis still ends within the padded input. -/
theorem window_lt {n k p s d out i j : Int} (hs : 1 ≤ s) (hd : 1 ≤ d)
    (hout : convOutputSize? n k p s d = some out) (hi : i < out) (hj : j < k) :
    i * s + j * d < n + 2 * p := by
  unfold convOutputSize? at hout
  rw [if_neg (by omega)] at hout
  dsimp only at hout
  split at hout
  next hpos =>
    cases hout
    have hspan : (n + 2 * p - d * (k - 1) - 1) / s * s ≤ n + 2 * p - d * (k - 1) - 1 :=
      Int.ediv_mul_le _ (by omega)
    have hfirst : i * s ≤ (n + 2 * p - d * (k - 1) - 1) / s * s :=
      Int.mul_le_mul_of_nonneg_right (by omega) (by omega)
    have hsecond : j * d ≤ d * (k - 1) := by
      rw [Int.mul_comm d]
      exact Int.mul_le_mul_of_nonneg_right (by omega) (by omega)
    omega
  next => cases hout

namespace ConvGeometry

variable {op : Convolution} {geo : ConvGeometry} {s : Nat} {input kernel out : List Nat}

/-- Windows along the listed axes. -/
theorem exists_window {axes : List AxisGeometry} {o k : List Nat}
    (haxes : ∀ g ∈ axes, g.transposed = false ∧ 0 ≤ g.padding ∧ 1 ≤ g.stride ∧ 1 ≤ g.dilation)
    (hinput : input.length = axes.length) (hkernel : kernel.length = axes.length)
    (hout : List.Forall₂ (fun (axis : AxisGeometry × Nat × Nat) size =>
      (axis.1.outputSize? axis.2.1 axis.2.2).map Int.toNat = some size)
      (axes.zip (input.zip kernel)) out) (ho : InBounds out o) (hk : InBounds kernel k) :
    ∃ w, meeting (axes.map fun g => (g.stride, g.dilation)) o k = w.map Int.ofNat ∧
      InBounds (paddedSizes input (axes.map (·.padding))) w := by
  induction axes generalizing input kernel out o k with
  | nil =>
      obtain rfl := List.length_eq_zero_iff.1 hinput
      exact ⟨[], rfl, trivial⟩
  | cons g axes ih =>
      cases input with
      | nil => simp at hinput
      | cons n input =>
          cases kernel with
          | nil => simp at hkernel
          | cons size kernel =>
              obtain ⟨m, rest, hm, hrest, rfl⟩ := List.forall₂_cons_left_iff.1 hout
              obtain ⟨i, o, rfl, hi, ho⟩ := inBounds_cons.1 ho
              obtain ⟨j, k, rfl, hj, hk⟩ := inBounds_cons.1 hk
              obtain ⟨w, hw, hin⟩ := ih (fun g hg => haxes g (by simp [hg])) (by simpa using hinput)
                (by simpa using hkernel) hrest ho hk
              obtain ⟨hstd, hp, hs, hd⟩ := haxes g (by simp)
              obtain ⟨total, htotal, hm⟩ := Option.map_eq_some_iff.1 hm
              rw [AxisGeometry.outputSize?, hstd, if_neg Bool.false_ne_true] at htotal
              dsimp only at htotal
              have hlt := window_lt (i := i) (j := j) hs hd htotal (by omega) (by omega)
              have hnonneg : 0 ≤ (i : Int) * g.stride + j * g.dilation :=
                Int.add_nonneg (Int.mul_nonneg (by omega) (by omega))
                  (Int.mul_nonneg (by omega) (by omega))
              refine ⟨((i : Int) * g.stride + j * g.dilation).toNat :: w, ?_, ?_, hin⟩
              · simp only [meeting, List.map_cons, List.zip_cons_cons, List.zipWith_cons_cons]
                  at hw ⊢
                rw [hw]
                simp only [Int.ofNat_eq_natCast, Int.toNat_of_nonneg hnonneg]
              · dsimp only
                omega

/-- All windows lie within the padded input. -/
theorem windows_inBounds (h : geo.Valid s) (hstd : geo.transposed = false)
    (hinput : input.length = s) (hkernel : kernel.length = s)
    (hout : geo.outputs? input kernel = some out) {o k : List Nat} (ho : InBounds out o)
    (hk : InBounds kernel k) :
    ∃ w, meeting geo.steps o k = w.map Int.ofNat ∧ InBounds (paddedSizes input geo.padding) w := by
  rw [steps_eq h, padding_eq h]
  have hlen := length_axes h
  refine exists_window (fun g hg => ?_) (by omega) (by omega) (mapM_eq_some.1 hout) ho hk
  obtain ⟨ht, hp, hs, hd, -⟩ := axis_valid h hg
  exact ⟨ht.trans hstd, hp, hs, hd⟩

theorem length_outputs (h : geo.Valid s) (hinput : input.length = s) (hkernel : kernel.length = s)
    (hout : geo.outputs? input kernel = some out) : out.length = s := by
  have hlen := (mapM_eq_some.1 hout).length_eq
  have haxes := length_axes h
  simp only [List.length_zip] at hlen
  omega

end ConvGeometry

end TensorLowering
