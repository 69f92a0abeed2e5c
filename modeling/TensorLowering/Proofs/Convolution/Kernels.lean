import TensorLowering.Proofs.Build.Reductions
import TensorLowering.Proofs.Reduction.Windows

/-!
# Convolution kernels in a construction

The three kernels with the channels first. Each runs over the positions of its output and sums over
the channels that it has a loop for and over the positions of the kernel.
-/
namespace TensorLowering.Build

open Numeric NdArray Stage

variable {fails : LowerError → Prop} {s : Stage} {spec : ReductionSpec}
  {input weight init : ValueId}
  {x w c : Tensor} {out kernel padded : List Nat} {steps : List (Int × Int)}
  {iterators : List IteratorKind} {ids : Option (ValueId × ValueId)}
  {zs : Option (Binary64 × Binary64)}

/-- Windows that lie within the array that they slide over, whose sizes are of 64 bits. -/
structure Slides (steps : List (Int × Int)) (out kernel padded : List Nat) : Prop where
  length_out : out.length = steps.length
  length_kernel : kernel.length = steps.length
  length_padded : padded.length = steps.length
  fits : ∀ n ∈ padded, n < 0x8000000000000000
  steps_ne_zero : ∀ step ∈ steps, step.1 ≠ 0 ∧ step.2 ≠ 0
  window : ∀ o k, InBounds out o → InBounds kernel k →
    ∃ w, meeting steps o k = w.map Int.ofNat ∧ InBounds padded w

theorem Slides.kernel_eq_out (h : Slides steps out kernel padded) : kernel.length = out.length :=
  h.length_kernel.trans h.length_out.symm

/-- The position of a window within the array. -/
theorem Slides.inBounds (h : Slides steps out kernel padded) {o k : List Nat} (ho : InBounds out o)
    (hk : InBounds kernel k) : InBounds padded ((meeting steps o k).map Int.toNat) := by
  obtain ⟨w, hw, hin⟩ := h.window o k ho hk
  have hback : Int.toNat ∘ Int.ofNat = id := rfl
  rwa [hw, List.map_map, hback, List.map_id]

/-! ## Places of the maps -/

section Places

variable {P H A M B : List Nat} {first second : Nat}

/-- What a map reads that has places before the spatial loops and all that are between these and
the loops of the kernel. -/
theorem select_channels (hP : ∀ d ∈ P, d < H.length) (hfirst : first = H.length + A.length) :
    select (P ++ List.range' first M.length) (H ++ A ++ M ++ B) = select P H ++ M := by
  have hhead : select P (H ++ A ++ M ++ B) = select P H := by
    refine List.map_congr_left fun d hd => ?_
    rw [List.append_assoc, List.append_assoc, List.getD_eq_getElem?_getD,
      List.getElem?_append_left (hP d hd), List.getD_eq_getElem?_getD]
  have hmid : select (List.range' first M.length) (H ++ A ++ M ++ B) = M :=
    select_range' (by rw [hfirst, List.length_append]) rfl
  rw [select] at hhead hmid ⊢
  rw [List.map_append, hhead, hmid]

/-- The same with the loops of the kernel. -/
theorem select_taps (hP : ∀ d ∈ P, d < H.length) (hfirst : first = H.length + A.length)
    (hsecond : second = first + M.length) :
    select (P ++ List.range' first M.length ++ List.range' second B.length) (H ++ A ++ M ++ B) =
      select P H ++ M ++ B := by
  have htaps : select (List.range' second B.length) (H ++ A ++ M ++ B ++ []) = B :=
    select_range' (by rw [hsecond, hfirst, List.length_append, List.length_append]) rfl
  rw [List.append_nil, select] at htaps
  rw [select, List.map_append, htaps]
  exact congrArg (· ++ B) (select_channels hP hfirst)

end Places

/-- Windows route every point of the loops. The input is read at some of the first loops, all that
are between the spatial ones and those of the kernel, and the windows; the weight is read at the
loops of the kernel instead. -/
theorem Slides.routes (h : Slides steps out kernel padded) (head mid : List Nat)
    {P Q : List Nat} {first second : Nat} (hP : ∀ d ∈ P, d < head.length)
    (hQ : ∀ d ∈ Q, d < head.length) (hfirst : first = head.length + out.length)
    (hsecond : second = first + mid.length)
    (hlen : second + out.length = iterators.length) :
    Routes (.ofResults
        ((P ++ List.range' first mid.length).map .dim ++ windowExprs steps head.length second)
        ((Q ++ List.range' first mid.length ++ List.range' second out.length).map .dim)
        ((List.range first).map .dim) iterators)
      (head ++ out ++ (mid ++ kernel)) (select P head ++ mid ++ padded)
      (select Q head ++ mid ++ kernel) (head ++ out)
      (windowAt (P ++ List.range' first mid.length) steps head.length out.length mid.length)
      (select (Q ++ List.range' first mid.length ++ List.range' second out.length))
      (·.take (head ++ out).length) := by
  have hkernel := h.kernel_eq_out
  have hbound : (head ++ out ++ mid ++ kernel).length = second + out.length := by
    rw [List.length_append, List.length_append, List.length_append, hkernel, hsecond, hfirst]
  have hcount : (head ++ out).length = first := by rw [List.length_append, hfirst]
  have hlhs : ∀ d ∈ P ++ List.range' first mid.length,
      d < (head ++ out ++ mid ++ kernel).length := by
    intro d hd
    rw [hbound]
    rcases List.mem_append.1 hd with hd | hd
    · have hlt := hP d hd
      omega
    · rw [List.mem_range'_1] at hd
      omega
  have hrhs : ∀ d ∈ Q ++ List.range' first mid.length ++ List.range' second out.length,
      d < (head ++ out ++ mid ++ kernel).length := by
    intro d hd
    rw [hbound]
    simp only [List.mem_append, List.mem_range'_1] at hd
    rcases hd with (hd | hd) | hd
    · have hlt := hQ d hd
      omega
    · omega
    · omega
  have hcover : ∀ d < (head ++ out ++ mid ++ kernel).length,
      d ∈ P ++ List.range' first mid.length ∨
        d ∈ Q ++ List.range' first mid.length ++ List.range' second out.length ∨
          d ∈ List.range (head ++ out).length := by
    intro d hd
    rw [hbound] at hd
    rw [hcount]
    simp only [List.mem_append, List.mem_range'_1, List.mem_range]
    omega
  have hroutes := routes_windows (hbound.trans hlen) h.length_out h.length_kernel h.length_padded
    h.fits h.steps_ne_zero hlhs hrhs hcover h.window
  rw [select_channels hP hfirst, ← hkernel, select_taps hQ hfirst hsecond, hkernel, hcount,
    ← hfirst, ← hsecond, List.append_assoc (head ++ out)] at hroutes
  rwa [hcount]

/-! ## The kernels -/

variable {n f g ch : Nat} {strides dilations : List Int}

section Standard

/-- Every output channel reads every input channel. -/
def standardSums (steps : List (Int × Int)) (ch : Nat) (kernel : List Nat) (x w c : Tensor)
    (zs : Option (Binary64 × Binary64)) : Tensor :=
  .ofEntries c.dtype c.shape fun ix =>
    addTerms (fun k =>
      x.factor .signed (zs.map Prod.fst) (ix.getD 0 0 :: k.getD 0 0 ::
          (meeting steps (ix.drop 2) (k.drop 1)).map Int.toNat) *
        w.factor .signed (zs.map Prod.snd) (ix.getD 1 0 :: k))
      (points (ch :: kernel)) (c.entry ix)

/-- The maps of the kernel over `r` spatial axes. -/
def standardIndexing (steps : List (Int × Int)) (r : Nat) : Indexing :=
  .ofResults ([0, 2 + r].map .dim ++ windowExprs steps 2 (3 + r))
    ((1 :: (2 + r) :: List.range' (3 + r) r).map .dim) ((List.range (2 + r)).map .dim)
    (List.replicate (2 + r) .parallel ++ List.replicate (1 + r) .reduction)

variable {r a₀ a₁ b₀ : Nat} {A B : List Nat}

theorem select_standard_lhs (hA : A.length = r) :
    select [0, 2 + r] ([a₀, a₁] ++ A ++ [b₀] ++ B) = [a₀, b₀] :=
  select_channels (P := [0]) (by simp) (by rw [hA]; rfl)

theorem select_standard_rhs (hA : A.length = r) (hB : B.length = r) :
    select (1 :: (2 + r) :: List.range' (3 + r) r) ([a₀, a₁] ++ A ++ [b₀] ++ B) =
      a₁ :: b₀ :: B := by
  subst hA
  have htaps := select_taps (P := [1]) (H := [a₀, a₁]) (A := A) (M := [b₀]) (B := B) (by simp) rfl
    (Nat.add_right_comm 2 1 A.length)
  rwa [hB] at htaps

theorem range_two_add (r : Nat) : List.range (2 + r) = 0 :: 1 :: List.range' 2 r := by
  rw [Nat.add_comm, List.range_eq_range', List.range'_succ, List.range'_succ]

theorem indexing?_standard {quantized : Bool} (hstrides : strides.length = r)
    (hdilations : dilations.length = r) :
    (ReductionSpec.named
      (.conv ⟨.standard .channelFirst, strides, dilations, quantized⟩)).indexing? =
        some (standardIndexing (strides.zip dilations) r) := by
  subst hstrides
  rw [standardIndexing, range_two_add]
  exact if_neg (by rw [hdilations]; exact Nat.lt_irrefl _)

theorem Slides.standard_routes (h : Slides steps out kernel padded) (n f ch : Nat) :
    Routes (standardIndexing steps out.length) (n :: f :: out ++ ch :: kernel) (n :: ch :: padded)
      (f :: ch :: kernel) (n :: f :: out) (windowAt [0, 2 + out.length] steps 2 out.length 1)
      (select (1 :: (2 + out.length) :: List.range' (3 + out.length) out.length))
      (·.take (n :: f :: out).length) := by
  refine h.routes [n, f] [ch] (P := [0]) (Q := [1]) (by simp) (by simp) rfl
    (Nat.add_right_comm 2 1 out.length) ?_
  simp only [List.length_append, List.length_replicate]
  omega

theorem Slides.standard_sums (h : Slides steps out kernel padded)
    (hcshape : c.shape = n :: f :: out) :
    productSums c x w .signed zs (ch :: kernel) (windowAt [0, 2 + out.length] steps 2 out.length 1)
        (select (1 :: (2 + out.length) :: List.range' (3 + out.length) out.length)) =
      standardSums steps ch kernel x w c zs := by
  refine Tensor.ofEntries_congr fun ix hix => addTerms_congr fun k hk => ?_
  rw [hcshape] at hix
  obtain ⟨i, rest, rfl, -, hrest⟩ := inBounds_cons.1 hix
  obtain ⟨j, o, rfl, -, ho⟩ := inBounds_cons.1 hrest
  obtain ⟨q, k, rfl, -, hk⟩ := inBounds_cons.1 (mem_points.1 hk)
  have hpoint : i :: j :: o ++ q :: k = [i, j] ++ o ++ [q] ++ k := by simp
  have hk' : k.length = out.length := by rw [hk.length_eq, h.kernel_eq_out]
  rw [hpoint, windowAt_parts (by rfl) ho.length_eq (by rfl), select_standard_lhs ho.length_eq,
    select_standard_rhs ho.length_eq hk']
  rfl

theorem standard_gives (h : Slides (strides.zip dilations) out kernel padded)
    (hstrides : strides.length = out.length) (hdilations : dilations.length = out.length)
    (hx : s.Holds input x) (hw : s.Holds weight w) (hc : s.Holds init c)
    (hz : s.HasZeroPoints ids zs) (hxshape : x.shape = n :: ch :: padded)
    (hwshape : w.shape = f :: ch :: kernel) (hcshape : c.shape = n :: f :: out) :
    (reduce (.named (.conv ⟨.standard .channelFirst, strides, dilations, zs.isSome⟩)) input weight
      ids init).Gives fails s fun v s' =>
        s'.Holds v (standardSums (strides.zip dilations) ch kernel x w c zs) := by
  have hroutes := h.standard_routes n f ch
  rw [← hxshape, ← hwshape, ← hcshape] at hroutes
  refine (reduce_sums_gives (indexing?_standard hstrides hdilations) rfl hx hw hc hz hroutes
    fun _ _ => rfl).weaken fun v s' _ hv => ?_
  exact hv.of_eq (h.standard_sums hcshape)

end Standard

section Depthwise

/-- One filter for each channel. -/
def depthwiseSums (steps : List (Int × Int)) (kernel : List Nat) (x w c : Tensor)
    (zs : Option (Binary64 × Binary64)) : Tensor :=
  .ofEntries c.dtype c.shape fun ix =>
    addTerms (fun k =>
      x.factor .signed (zs.map Prod.fst) (ix.getD 0 0 :: ix.getD 1 0 ::
          (meeting steps (ix.drop 2) k).map Int.toNat) *
        w.factor .signed (zs.map Prod.snd) (ix.getD 1 0 :: k))
      (points kernel) (c.entry ix)

/-- The maps of the kernel over `r` spatial axes. -/
def depthwiseIndexing (steps : List (Int × Int)) (r : Nat) : Indexing :=
  .ofResults ([0, 1].map .dim ++ windowExprs steps 2 (2 + r))
    ((1 :: List.range' (2 + r) r).map .dim) ((List.range (2 + r)).map .dim)
    (List.replicate (2 + r) .parallel ++ List.replicate r .reduction)

variable {r a₀ a₁ : Nat} {A B : List Nat}

theorem select_depthwise_rhs (hA : A.length = r) (hB : B.length = r) :
    select (1 :: List.range' (2 + r) r) ([a₀, a₁] ++ A ++ [] ++ B) = a₁ :: B := by
  subst hA
  have htaps := select_taps (P := [1]) (H := [a₀, a₁]) (A := A) (M := []) (B := B) (by simp) rfl rfl
  rwa [hB] at htaps

theorem indexing?_depthwise {quantized : Bool} (hstrides : strides.length = r)
    (hdilations : dilations.length = r) :
    (ReductionSpec.named
      (.conv ⟨.depthwise .channelFirst, strides, dilations, quantized⟩)).indexing? =
        some (depthwiseIndexing (strides.zip dilations) r) := by
  subst hstrides
  rw [depthwiseIndexing, range_two_add]
  exact if_neg (by rw [hdilations]; exact Nat.lt_irrefl _)

theorem Slides.depthwise_routes (h : Slides steps out kernel padded) (n ch : Nat) :
    Routes (depthwiseIndexing steps out.length) (n :: ch :: out ++ kernel) (n :: ch :: padded)
      (ch :: kernel) (n :: ch :: out) (windowAt [0, 1] steps 2 out.length 0)
      (select (1 :: List.range' (2 + out.length) out.length)) (·.take (n :: ch :: out).length) := by
  refine h.routes [n, ch] [] (P := [0, 1]) (Q := [1]) (by simp) (by simp) rfl rfl ?_
  simp only [List.length_append, List.length_replicate]

theorem Slides.depthwise_sums (h : Slides steps out kernel padded)
    (hcshape : c.shape = n :: ch :: out) :
    productSums c x w .signed zs kernel (windowAt [0, 1] steps 2 out.length 0)
        (select (1 :: List.range' (2 + out.length) out.length)) =
      depthwiseSums steps kernel x w c zs := by
  refine Tensor.ofEntries_congr fun ix hix => addTerms_congr fun k hk => ?_
  rw [hcshape] at hix
  obtain ⟨i, rest, rfl, -, hrest⟩ := inBounds_cons.1 hix
  obtain ⟨j, o, rfl, -, ho⟩ := inBounds_cons.1 hrest
  have hpoint : i :: j :: o ++ k = [i, j] ++ o ++ [] ++ k := by simp
  have hk' : k.length = out.length := by rw [(mem_points.1 hk).length_eq, h.kernel_eq_out]
  rw [hpoint, windowAt_parts (by rfl) ho.length_eq (by rfl), select_depthwise_rhs ho.length_eq hk']
  rfl

theorem depthwise_gives (h : Slides (strides.zip dilations) out kernel padded)
    (hstrides : strides.length = out.length) (hdilations : dilations.length = out.length)
    (hx : s.Holds input x) (hw : s.Holds weight w) (hc : s.Holds init c)
    (hz : s.HasZeroPoints ids zs) (hxshape : x.shape = n :: ch :: padded)
    (hwshape : w.shape = ch :: kernel) (hcshape : c.shape = n :: ch :: out) :
    (reduce (.named (.conv ⟨.depthwise .channelFirst, strides, dilations, zs.isSome⟩)) input weight
      ids init).Gives fails s fun v s' =>
        s'.Holds v (depthwiseSums (strides.zip dilations) kernel x w c zs) := by
  have hroutes := h.depthwise_routes n ch
  rw [← hxshape, ← hwshape, ← hcshape] at hroutes
  refine (reduce_sums_gives (indexing?_depthwise hstrides hdilations) rfl hx hw hc hz hroutes
    fun _ _ => rfl).weaken fun v s' _ hv => ?_
  exact hv.of_eq (h.depthwise_sums hcshape)

end Depthwise

section Grouped

/-- Every output channel reads the input channels of its group. -/
def groupedSums (steps : List (Int × Int)) (ch : Nat) (kernel : List Nat) (x w c : Tensor)
    (zs : Option (Binary64 × Binary64)) : Tensor :=
  .ofEntries c.dtype c.shape fun ix =>
    addTerms (fun k =>
      x.factor .signed (zs.map Prod.fst) (ix.getD 0 0 :: ix.getD 1 0 :: k.getD 0 0 ::
          (meeting steps (ix.drop 3) (k.drop 1)).map Int.toNat) *
        w.factor .signed (zs.map Prod.snd) (ix.getD 1 0 :: ix.getD 2 0 :: k))
      (points (ch :: kernel)) (c.entry ix)

/-- The maps of the kernel over `r` spatial axes. -/
def groupedIndexing (steps : List (Int × Int)) (r : Nat) : Indexing :=
  .ofResults ([0, 1, 3 + r].map .dim ++ windowExprs steps 3 (4 + r))
    ((1 :: 2 :: (3 + r) :: List.range' (4 + r) r).map .dim) ((List.range (3 + r)).map .dim)
    (List.replicate (3 + r) .parallel ++ List.replicate (1 + r) .reduction)

variable {r a₀ a₁ a₂ b₀ : Nat} {A B : List Nat}

theorem select_grouped_lhs (hA : A.length = r) :
    select [0, 1, 3 + r] ([a₀, a₁, a₂] ++ A ++ [b₀] ++ B) = [a₀, a₁, b₀] :=
  select_channels (P := [0, 1]) (by simp) (by rw [hA]; rfl)

theorem select_grouped_rhs (hA : A.length = r) (hB : B.length = r) :
    select (1 :: 2 :: (3 + r) :: List.range' (4 + r) r) ([a₀, a₁, a₂] ++ A ++ [b₀] ++ B) =
      a₁ :: a₂ :: b₀ :: B := by
  subst hA
  have htaps := select_taps (P := [1, 2]) (H := [a₀, a₁, a₂]) (A := A) (M := [b₀]) (B := B)
    (by simp) rfl (Nat.add_right_comm 3 1 A.length)
  rwa [hB] at htaps

theorem indexing?_grouped {quantized : Bool} (hstrides : strides.length = r)
    (hdilations : dilations.length = r) :
    (ReductionSpec.named (.conv ⟨.grouped, strides, dilations, quantized⟩)).indexing? =
      some (groupedIndexing (strides.zip dilations) r) := by
  subst hstrides
  have hloops : List.range (3 + strides.length) = 0 :: 1 :: 2 :: List.range' 3 strides.length := by
    rw [Nat.add_comm, List.range_eq_range', List.range'_succ, List.range'_succ, List.range'_succ]
  rw [groupedIndexing, hloops]
  exact if_neg (by rw [hdilations]; exact Nat.lt_irrefl _)

theorem Slides.grouped_routes (h : Slides steps out kernel padded) (n g f ch : Nat) :
    Routes (groupedIndexing steps out.length) (n :: g :: f :: out ++ ch :: kernel)
      (n :: g :: ch :: padded) (g :: f :: ch :: kernel) (n :: g :: f :: out)
      (windowAt [0, 1, 3 + out.length] steps 3 out.length 1)
      (select (1 :: 2 :: (3 + out.length) :: List.range' (4 + out.length) out.length))
      (·.take (n :: g :: f :: out).length) := by
  refine h.routes [n, g, f] [ch] (P := [0, 1]) (Q := [1, 2]) (by simp) (by simp) rfl
    (Nat.add_right_comm 3 1 out.length) ?_
  simp only [List.length_append, List.length_replicate]
  omega

theorem Slides.grouped_sums (h : Slides steps out kernel padded)
    (hcshape : c.shape = n :: g :: f :: out) :
    productSums c x w .signed zs (ch :: kernel)
        (windowAt [0, 1, 3 + out.length] steps 3 out.length 1)
        (select (1 :: 2 :: (3 + out.length) :: List.range' (4 + out.length) out.length)) =
      groupedSums steps ch kernel x w c zs := by
  refine Tensor.ofEntries_congr fun ix hix => addTerms_congr fun k hk => ?_
  rw [hcshape] at hix
  obtain ⟨i, rest, rfl, -, hrest⟩ := inBounds_cons.1 hix
  obtain ⟨p, rest, rfl, -, hrest⟩ := inBounds_cons.1 hrest
  obtain ⟨j, o, rfl, -, ho⟩ := inBounds_cons.1 hrest
  obtain ⟨q, k, rfl, -, hk⟩ := inBounds_cons.1 (mem_points.1 hk)
  have hpoint : i :: p :: j :: o ++ q :: k = [i, p, j] ++ o ++ [q] ++ k := by simp
  have hk' : k.length = out.length := by rw [hk.length_eq, h.kernel_eq_out]
  rw [hpoint, windowAt_parts (by rfl) ho.length_eq (by rfl), select_grouped_lhs ho.length_eq,
    select_grouped_rhs ho.length_eq hk']
  rfl

theorem grouped_gives (h : Slides (strides.zip dilations) out kernel padded)
    (hstrides : strides.length = out.length) (hdilations : dilations.length = out.length)
    (hx : s.Holds input x) (hw : s.Holds weight w) (hc : s.Holds init c)
    (hz : s.HasZeroPoints ids zs) (hxshape : x.shape = n :: g :: ch :: padded)
    (hwshape : w.shape = g :: f :: ch :: kernel) (hcshape : c.shape = n :: g :: f :: out) :
    (reduce (.named (.conv ⟨.grouped, strides, dilations, zs.isSome⟩)) input weight ids
      init).Gives fails s fun v s' =>
        s'.Holds v (groupedSums (strides.zip dilations) ch kernel x w c zs) := by
  have hroutes := h.grouped_routes n g f ch
  rw [← hxshape, ← hwshape, ← hcshape] at hroutes
  refine (reduce_sums_gives (indexing?_grouped hstrides hdilations) rfl hx hw hc hz hroutes
    fun _ _ => rfl).weaken fun v s' _ hv => ?_
  exact hv.of_eq (h.grouped_sums hcshape)

end Grouped

end TensorLowering.Build
