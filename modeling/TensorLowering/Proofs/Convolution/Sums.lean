import TensorLowering.Lowering.Convolution.Paths
import TensorLowering.Lowering.Rule
import TensorLowering.Proofs.Build.Layouts
import TensorLowering.Proofs.Convolution.Geometry

/-!
# Convolutions, element by element

What a standard convolution means, apart from any lowering of it. A filter reads the channels of its
group; the input is zero around its bounds, and the products with these zeros are added too. The
channel `i` of a group `g` is the one at `g * m + i` when every group has `m` channels.
-/
namespace TensorLowering

open Numeric NdArray

/-- Sizes of a convolution. Channels and filters are counted for one group. -/
structure ConvolutionSizes where
  batch : Nat
  groups : Nat
  channels : Nat
  filters : Nat
  input : List Nat
  kernel : List Nat

/-- The entry of a bias, or zero where there is none. -/
def biasEntry (bias : Option Tensor) (f : Nat) : Binary64 := bias.elim 0 (·.entry [f])

namespace ConvolutionSizes

def inputShape (c : ConvolutionSizes) : List Nat := c.batch :: c.groups * c.channels :: c.input

def weightShape (c : ConvolutionSizes) : List Nat := c.groups * c.filters :: c.channels :: c.kernel

def outputShape (c : ConvolutionSizes) (out : List Nat) : List Nat :=
  c.batch :: c.groups * c.filters :: out

/-- The sum at a position of the output, from the bias on, over the channels of the group and the
positions of the kernel. -/
def sum (c : ConvolutionSizes) (geo : ConvGeometry) (x w : Tensor) (first : Binary64)
    (ix : List Nat) : Binary64 :=
  let filter := ix.getD 1 0
  addTerms (fun k =>
    let channel := filter / c.filters * c.channels + k.getD 0 0
    CastKind.signed.extend x.dtype
        (x.read (ix.getD 0 0 :: channel :: geo.reads (ix.drop 2) (k.drop 1))) *
      CastKind.signed.extend w.dtype (w.entry (filter :: k)))
    (points (c.channels :: c.kernel)) first

/-- The convolution with the sums rounded to the accumulator type. -/
def convolution (c : ConvolutionSizes) (geo : ConvGeometry) (accumulator : DType) (x w : Tensor)
    (bias : Option Tensor) (out : List Nat) : Tensor :=
  .ofEntries accumulator (c.outputShape out) fun ix =>
    c.sum geo x w (accumulator.round (biasEntry bias (ix.getD 1 0))) ix

/-- The padded input, the weight and the output are not too large, and neither are they with their
channels split into groups. -/
structure Fits (c : ConvolutionSizes) (geo : ConvGeometry) : Prop where
  input : ¬ TooLarge (c.batch :: c.groups :: c.channels :: paddedSizes c.input geo.padding)
  weight : ¬ TooLarge (c.groups :: c.filters :: c.channels :: c.kernel)
  output : ∀ out, geo.outputs? c.input c.kernel = some out →
    ¬ TooLarge (c.batch :: c.groups :: c.filters :: out)

/-- Every group has one channel and one filter, and there is a kernel for that. -/
def Depthwise (c : ConvolutionSizes) (config : LoweringConfig) : Prop :=
  c.channels = 1 ∧ c.filters = 1 ∧ config.preferDepthwise = true

/-- The sizes that tensors are made with are read back from doubles: those of the output and, where
channels are split into groups, those of the padded input and the weight. -/
structure Exact (c : ConvolutionSizes) (geo : ConvGeometry) (config : LoweringConfig) : Prop where
  output : ∀ out, geo.outputs? c.input c.kernel = some out →
    ∀ n ∈ c.outputShape out, Binary64.IsExact n
  split : c.groups ≠ 1 → ¬ c.Depthwise config →
    ∀ n ∈ [c.groups, c.filters, c.channels, c.groups * c.channels] ++
      paddedSizes c.input geo.padding ++ c.kernel, Binary64.IsExact n

end ConvolutionSizes

/-! ## The padded input -/

/-- The edges of the padded input: none along the batch and the channels. -/
def ConvGeometry.edges (geo : ConvGeometry) : List Int := [0, 0] ++ geo.padding

theorem paddedSizes_edges {n ch : Nat} {input : List Nat} {geo : ConvGeometry} :
    paddedSizes (n :: ch :: input) geo.edges = n :: ch :: paddedSizes input geo.padding := by
  simp [paddedSizes, ConvGeometry.edges]

/-- A window of the padded input is read at its coordinates in the input. -/
theorem Tensor.entry_padded_window {x : Tensor} {n ch i q : Nat} {input w o k : List Nat}
    {geo : ConvGeometry} {v : Binary64} (hv : x.dtype.round v = v) (hx : x.shape = n :: ch :: input)
    (hi : i < n) (hq : q < ch) (hw : meeting geo.steps o k = w.map Int.ofNat)
    (hin : InBounds (paddedSizes input geo.padding) w) :
    (x.padded geo.edges v).entry (i :: q :: (meeting geo.steps o k).map Int.toNat) =
      x.readOr v (i :: q :: geo.reads o k) := by
  have hback : (meeting geo.steps o k).map Int.toNat = w := by
    rw [hw]
    simp [Function.comp_def]
  have hbounds : InBounds (paddedSizes x.shape geo.edges) (i :: q :: w) := by
    rw [hx, paddedSizes_edges]
    exact ⟨hi, hq, hin⟩
  have hreads : geo.reads o k = shifted geo.padding w := by
    rw [ConvGeometry.reads, hw, shifted, List.zipWith_map_right]
    rfl
  rw [hback, entry_padded hv hbounds, hreads]
  simp [shifted, ConvGeometry.edges]

/-! ## Channels split into groups -/

section Groups

open Stage Build

variable {fails : LowerError → Prop} {s : Stage} {v : ValueId} {t : Tensor} {z : Size}
  {A C : List Nat} {g m : Nat}

theorem Reassociation.foldRange_pair {rank : Nat} (hrank : rank = A.length + 2 + C.length) :
    foldRange rank A.length (A.length + 2) = middle A [g, m] C := by
  have hlen : (A ++ [g, m] ++ C).length = rank := by
    rw [hrank]
    simp only [List.length_append, List.length_cons, List.length_nil]
  have hstop : (A ++ [g, m]).length = A.length + 2 := by simp
  rw [middle, hlen, hstop]

theorem volume_pair (n k : Nat) : volume [n, k] = n * k := by
  simp

theorem ravel_pair (i j : Nat) : ravel [g, m] [i, j] = i * m + j := by
  simp [ravel]

theorem ConvPlan.splitGroups_gives (hv : s.Holds v t) (ht : t.shape = A ++ [g * m] ++ C)
    (hz : s.HasIndex z g) (hg : 1 ≤ g) (hexact : ∀ n ∈ t.shape, Binary64.IsExact n)
    (hm : Binary64.IsExact m) (hfit : ¬ TooLarge (A ++ [g, m] ++ C)) :
    (splitGroups v A.length z).Gives fails s fun pair s' =>
      s'.Holds pair.1 (t.reshaped (A ++ [g, m] ++ C)) ∧ pair.2 = .middle A [g, m] C := by
  refine Gives.bind (dims_gives hv hexact) fun zs s₁ hle₁ hzs => ?_
  rw [ht] at hzs
  have hlen := hzs.length_eq
  have houter := List.forall₂_take_append zs A ([g * m] ++ C) (List.append_assoc A _ _ ▸ hzs)
  have hrest := List.forall₂_drop_append zs A ([g * m] ++ C) (List.append_assoc A _ _ ▸ hzs)
  obtain ⟨size, inner, hsize, hinner, hdrop⟩ := List.forall₂_cons_right_iff.1 hrest
  have hdiv : ArithOp.floorDiv.eval? ((g * m : Nat) : Int) g = some (m : Int) := by
    have hg' : ((g : Nat) : Int) ≠ 0 := by omega
    have hquotient : (((g * m : Nat) : Int)).fdiv g = m := by
      rw [Int.natCast_mul, Int.mul_fdiv_cancel_left _ hg']
    have hproduct : InInt64 ((g * m : Nat) : Int) := (hexact _ (by simp [ht])).inInt64
    rw [ArithOp.eval?_floorDiv hproduct hg', hquotient]
    exact bounded?_eq_some.2 ⟨hm.inInt64, rfl⟩
  rw [List.splitAt_eq, hdrop]
  refine Gives.bind (arith_known hsize.known hz.known hdiv) fun perGroup s₂ hle₂ hper => ?_
  have hfold : Reassociation.foldRange (zs.length + 1) A.length (A.length + 2) =
      .middle A [g, m] C := by
    refine Reassociation.foldRange_pair ?_
    rw [hlen]
    simp only [List.length_append, List.length_singleton]
    omega
  have hsizes : s₂.HasSizes (zs.take A.length ++ [z, perGroup] ++ inner) (A ++ [g, m] ++ C) := by
    have hpair : s₂.HasSizes [z, perGroup] [g, m] :=
      .cons (hz.mono (hle₁.trans hle₂)) (.cons (hper.index hm) .nil)
    have hfirst : s₂.HasSizes (zs.take A.length) A := HasSizes.mono houter hle₂
    have hlast : s₂.HasSizes inner C := HasSizes.mono hinner hle₂
    exact List.rel_append (List.rel_append hfirst hpair) hlast
  have hvolume : t.shape = A ++ [volume [g, m]] ++ C := by
    rw [ht, volume_pair]
  dsimp only
  rw [hfold]
  refine Gives.bind (expandShape_gives (hv.mono (hle₁.trans hle₂)) hvolume (by simp) hsizes hfit) ?_
  exact fun split s₃ _ hsplit => .pure ⟨hsplit, rfl⟩

/-- Splitting an axis off a unit axis makes no array too large. -/
theorem NdArray.not_tooLarge_split (h : ¬ TooLarge (A ++ [g * m] ++ C)) (hone : g = 1 ∨ m = 1) :
    ¬ TooLarge (A ++ [g, m] ++ C) := by
  have hpair : nonzeroVolume ([g] ++ [m]) = nonzeroVolume [g * m] := by
    rw [nonzeroVolume_append, nonzeroVolume_singleton, nonzeroVolume_singleton,
      nonzeroVolume_singleton]
    rcases hone with rfl | rfl <;> simp
  rw [not_tooLarge_iff] at h ⊢
  rw [nonzeroVolume_append, nonzeroVolume_append] at h ⊢
  exact (congrArg (nonzeroVolume A * · * nonzeroVolume C) hpair).trans_lt h

theorem NdArray.not_tooLarge_exchange {m n : Nat} (h : ¬ TooLarge (m :: n :: A)) :
    ¬ TooLarge (n :: m :: A) := by
  have hswap : nonzeroVolume ([n] ++ [m] ++ A) = nonzeroVolume ([m] ++ [n] ++ A) := by
    simp only [nonzeroVolume_append]
    rw [Nat.mul_comm (nonzeroVolume [n])]
  rw [not_tooLarge_iff] at h ⊢
  exact hswap.trans_lt h

theorem group_lt {i k : Nat} (hi : i < g) (hk : k < m) : i * m + k < g * m := by
  have hle : (i + 1) * m ≤ g * m := Nat.mul_le_mul_right _ hi
  rw [Nat.succ_mul] at hle
  omega

/-- A channel of a group, among all the channels. -/
theorem Tensor.entry_split {i k : Nat} {x y : List Nat} (ht : t.shape = A ++ [g * m] ++ C)
    (hx : InBounds A x) (hi : i < g) (hk : k < m) (hy : InBounds C y) :
    (t.reshaped (A ++ [g, m] ++ C)).entry (x ++ [i, k] ++ y) =
      t.entry (x ++ [i * m + k] ++ y) := by
  have hvolume : t.shape = A ++ [volume [g, m]] ++ C := by
    rw [ht, volume_pair]
  have hpair : InBounds [g, m] [i, k] := ⟨hi, hk, trivial⟩
  have hentry := entry_reshaped_split hvolume hx hpair hy
  rwa [ravel_pair] at hentry

/-- A channel among all the channels is one of a group. -/
theorem Tensor.entry_folded {j : Nat} {x y : List Nat} (ht : t.shape = A ++ [g, m] ++ C)
    (hx : InBounds A x) (hj : j < g * m) (hy : InBounds C y) :
    (t.reshaped (A ++ [g * m] ++ C)).entry (x ++ [j] ++ y) =
      t.entry (x ++ [j / m, j % m] ++ y) := by
  have hpos : 0 < m := Nat.pos_of_lt_mul_left hj
  have hgroup : j / m < g := Nat.div_lt_of_lt_mul (by rwa [Nat.mul_comm] at hj)
  have hpair : InBounds [g, m] [j / m, j % m] := ⟨hgroup, Nat.mod_lt _ hpos, trivial⟩
  have hravel : ravel [g, m] [j / m, j % m] = j := by rw [ravel_pair, Nat.div_add_mod']
  have hentry := entry_reshaped_fold ht hx hpair hy
  rwa [volume_pair, hravel] at hentry

end Groups

end TensorLowering
