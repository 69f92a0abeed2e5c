import TensorLowering.Proofs.Reduction.Sums
import TensorLowering.Reduction.Convolution

/-!
# Reductions through windows

A convolution kernel reads its input through windows: along each spatial axis, a position of the
output and one of the kernel meet at a multiple of each. As long as all windows lie within the
input, the kernel routes every point of its loops.
-/
namespace TensorLowering.NdArray

open Numeric

variable {bounds p : List Nat}

/-- Where positions of the output and of the kernel meet, with a stride and a dilation an axis. -/
def meeting (steps : List (Int × Int)) (out kernel : List Nat) : List Int :=
  List.zipWith (fun step at_ => at_.1 * step.1 + at_.2 * step.2) steps
    ((out.map Int.ofNat).zip (kernel.map Int.ofNat))

/-- The expressions of the windows, with the output loops counted from `out` and the kernel loops
from `kernel`. -/
def windowExprs (steps : List (Int × Int)) (out kernel : Nat) : List AffineExpr :=
  steps.mapIdx fun i step =>
    ((AffineExpr.dim (out + i)).scale step.1).add ((AffineExpr.dim (kernel + i)).scale step.2)

theorem windowExprs_cons {step : Int × Int} {steps : List (Int × Int)} {out kernel : Nat} :
    windowExprs (step :: steps) out kernel =
      ((AffineExpr.dim out).scale step.1).add ((AffineExpr.dim kernel).scale step.2) ::
        windowExprs steps (out + 1) (kernel + 1) := by
  simp only [windowExprs, List.mapIdx_cons, Nat.add_zero, Nat.add_assoc, Nat.add_comm 1]

/-- The windows at a point that has the positions from the given loops on. -/
theorem eval?_windowExprs {steps : List (Int × Int)} {point : List Int} {out kernel : Nat}
    {o k : List Nat} (hsteps : ∀ step ∈ steps, step.1 ≠ 0 ∧ step.2 ≠ 0)
    (ho : o.length = steps.length) (hk : k.length = steps.length)
    (hout : ∀ i, i < steps.length → point[out + i]? = (o.map Int.ofNat)[i]?)
    (hkernel : ∀ i, i < steps.length → point[kernel + i]? = (k.map Int.ofNat)[i]?) :
    (windowExprs steps out kernel).mapM (AffineExpr.eval? point) =
      some ((meeting steps o k).map wrapInt64) := by
  induction steps generalizing out kernel o k with
  | nil => rfl
  | cons step steps ih =>
      cases o with
      | nil => simp at ho
      | cons i o =>
          cases k with
          | nil => simp at hk
          | cons j k =>
              obtain ⟨hm, hn⟩ := hsteps step List.mem_cons_self
              have hi : point[out]? = some (i : Int) := by simpa using hout 0 (by simp)
              have hj : point[kernel]? = some (j : Int) := by simpa using hkernel 0 (by simp)
              have hrest := @ih (out + 1) (kernel + 1) o k
                (fun step h => hsteps step (List.mem_cons_of_mem _ h))
                (by simpa using ho) (by simpa using hk)
                (fun n hn => by
                  have hshift := hout (n + 1) (by simpa using hn)
                  rwa [Nat.add_comm n 1, ← Nat.add_assoc, Nat.add_comm 1 n] at hshift)
                (fun n hn => by
                  have hshift := hkernel (n + 1) (by simpa using hn)
                  rwa [Nat.add_comm n 1, ← Nat.add_assoc, Nat.add_comm 1 n] at hshift)
              rw [windowExprs_cons, List.mapM_cons, hrest, AffineExpr.eval?_add_scale hm hn hi hj]
              rfl

theorem asDim?_windowExprs {steps : List (Int × Int)} {out kernel : Nat} {e : AffineExpr}
    (hsteps : ∀ step ∈ steps, step.1 ≠ 0 ∧ step.2 ≠ 0) (he : e ∈ windowExprs steps out kernel) :
    e.asDim? = none := by
  obtain ⟨i, hi, rfl⟩ := List.mem_mapIdx.1 he
  obtain ⟨hm, hn⟩ := hsteps _ (List.getElem_mem hi)
  exact AffineExpr.asDim?_add_scale hm hn

/-! ## Loops over the output, other loops, and loops over the kernel -/

variable {head out mid kernel padded lhs rhs : List Nat} {steps : List (Int × Int)}
  {iterators : List IteratorKind}

/-- Where the input is read at a point of the loops. -/
def windowAt (lhs : List Nat) (steps : List (Int × Int)) (head out mid : Nat) (p : List Nat) :
    List Nat :=
  select lhs p ++
    (meeting steps ((p.drop head).take out) (p.drop (head + out + mid))).map Int.toNat

/-- A point of the loops, part by part. -/
theorem exists_parts (hp : InBounds (head ++ out ++ mid ++ kernel) p) :
    ∃ x o y k, p = x ++ o ++ y ++ k ∧ InBounds head x ∧ InBounds out o ∧ InBounds mid y ∧
      InBounds kernel k := by
  obtain ⟨xoy, k, rfl, hxoy, hk⟩ := hp.exists_append
  obtain ⟨xo, y, rfl, hxo, hy⟩ := hxoy.exists_append
  obtain ⟨x, o, rfl, hx, ho⟩ := hxo.exists_append
  exact ⟨x, o, y, k, rfl, hx, ho, hy, hk⟩

theorem windowAt_parts {a b c : Nat} {x o y k : List Nat} (hx : x.length = a) (ho : o.length = b)
    (hy : y.length = c) :
    windowAt lhs steps a b c (x ++ o ++ y ++ k) =
      select lhs (x ++ o ++ y ++ k) ++ (meeting steps o k).map Int.toNat := by
  subst hx ho hy
  have hout : ((x ++ o ++ y ++ k).drop x.length).take o.length = o := by
    simp [List.append_assoc]
  have hkernel : (x ++ o ++ y ++ k).drop (x.length + o.length + y.length) = k := by
    rw [← List.length_append, ← List.length_append, List.drop_left]
  rw [windowAt, hout, hkernel]

/-- Coordinates of a position of 64 bits do not wrap. -/
theorem map_wrapInt64 {w : List Nat} (hfits : ∀ n ∈ padded, n < 0x8000000000000000)
    (hw : InBounds padded w) : (w.map Int.ofNat).map wrapInt64 = w.map Int.ofNat := by
  induction padded generalizing w with
  | nil => rw [inBounds_nil.1 hw]; rfl
  | cons n padded ih =>
      obtain ⟨i, rest, rfl, hi, hrest⟩ := inBounds_cons.1 hw
      have hn := hfits n List.mem_cons_self
      have hin : InInt64 (Int.ofNat i) := by
        simp only [InInt64, minInt64, maxInt64, Int.ofNat_eq_natCast]
        omega
      rw [List.map_cons, List.map_cons, wrapInt64_of_inInt64 hin,
        ih (fun m hm => hfits m (List.mem_cons_of_mem n hm)) hrest]

/-- A window that lies within the input is read where its expressions say. -/
theorem eval?_windowAt (numDims : Nat) (hfits : ∀ n ∈ padded, n < 0x8000000000000000)
    (hsteps : ∀ step ∈ steps, step.1 ≠ 0 ∧ step.2 ≠ 0) (hout : out.length = steps.length)
    (hkernel : kernel.length = steps.length)
    (hlhs : ∀ d ∈ lhs, d < (head ++ out ++ mid ++ kernel).length)
    (hwindow : ∀ o k, InBounds out o → InBounds kernel k →
      ∃ w, meeting steps o k = w.map Int.ofNat ∧ InBounds padded w)
    (hp : InBounds (head ++ out ++ mid ++ kernel) p) :
    (AffineMap.mk numDims (lhs.map .dim ++
        windowExprs steps head.length (head.length + out.length + mid.length))).eval?
      (p.map Int.ofNat) =
        some ((windowAt lhs steps head.length out.length mid.length p).map Int.ofNat) := by
  have hlen : p.length = (head ++ out ++ mid ++ kernel).length := hp.length_eq
  obtain ⟨x, o, y, k, rfl, hx, ho, hy, hk⟩ := exists_parts hp
  obtain ⟨w, hw, hin⟩ := hwindow o k ho hk
  have hdims : (lhs.map AffineExpr.dim).mapM
      (AffineExpr.eval? ((x ++ o ++ y ++ k).map Int.ofNat)) =
        some ((select lhs (x ++ o ++ y ++ k)).map Int.ofNat) :=
    eval?_projection (fun d hd => hlen ▸ hlhs d hd) numDims
  have hfirst : ∀ i, i < steps.length →
      ((x ++ o ++ y ++ k).map Int.ofNat)[head.length + i]? = (o.map Int.ofNat)[i]? := by
    intro i hi
    have hlt : i < (o.map Int.ofNat).length := by
      rw [List.length_map, ho.length_eq, hout]
      exact hi
    rw [← hx.length_eq, List.append_assoc, List.append_assoc, List.map_append,
      List.getElem?_append_right (by simp), List.length_map, Nat.add_sub_cancel_left,
      List.map_append, List.getElem?_append_left hlt]
  have hsecond : ∀ i, i < steps.length →
      ((x ++ o ++ y ++ k).map Int.ofNat)[head.length + out.length + mid.length + i]? =
        (k.map Int.ofNat)[i]? := by
    intro i hi
    have hstart : head.length + out.length + mid.length = (x ++ o ++ y).length := by
      simp only [List.length_append, hx.length_eq, ho.length_eq, hy.length_eq]
    rw [hstart, List.map_append, List.getElem?_append_right (by simp), List.length_map,
      Nat.add_sub_cancel_left]
  have hwindows := eval?_windowExprs hsteps (by rw [ho.length_eq, hout])
    (by rw [hk.length_eq, hkernel]) hfirst hsecond
  rw [AffineMap.eval?, List.mapM_append, hdims, hwindows,
    windowAt_parts hx.length_eq ho.length_eq hy.length_eq, hw, map_wrapInt64 hfits hin,
    List.map_append, List.map_map, List.map_map]
  rfl

theorem inBounds_windowAt (hlhs : ∀ d ∈ lhs, d < (head ++ out ++ mid ++ kernel).length)
    (hwindow : ∀ o k, InBounds out o → InBounds kernel k →
      ∃ w, meeting steps o k = w.map Int.ofNat ∧ InBounds padded w)
    (hp : InBounds (head ++ out ++ mid ++ kernel) p) :
    InBounds (select lhs (head ++ out ++ mid ++ kernel) ++ padded)
      (windowAt lhs steps head.length out.length mid.length p) := by
  have hselect := inBounds_select hp hlhs
  obtain ⟨x, o, y, k, rfl, hx, ho, hy, hk⟩ := exists_parts hp
  obtain ⟨w, hw, hin⟩ := hwindow o k ho hk
  have hback : (w.map Int.ofNat).map Int.toNat = w := by simp [Function.comp_def]
  rw [windowAt_parts hx.length_eq ho.length_eq hy.length_eq, hw, hback]
  exact hselect.append hin

/-- Loops whose windows lie within the input route every point. -/
theorem routes_windows (hlen : (head ++ out ++ mid ++ kernel).length = iterators.length)
    (hout : out.length = steps.length) (hkernel : kernel.length = steps.length)
    (hpadded : padded.length = steps.length) (hfits : ∀ n ∈ padded, n < 0x8000000000000000)
    (hsteps : ∀ step ∈ steps, step.1 ≠ 0 ∧ step.2 ≠ 0)
    (hlhs : ∀ d ∈ lhs, d < (head ++ out ++ mid ++ kernel).length)
    (hrhs : ∀ d ∈ rhs, d < (head ++ out ++ mid ++ kernel).length)
    (hcover : ∀ d < (head ++ out ++ mid ++ kernel).length,
      d ∈ lhs ∨ d ∈ rhs ∨ d ∈ List.range (head ++ out).length)
    (hwindow : ∀ o k, InBounds out o → InBounds kernel k →
      ∃ w, meeting steps o k = w.map Int.ofNat ∧ InBounds padded w) :
    Routes (.ofResults
        (lhs.map .dim ++ windowExprs steps head.length (head.length + out.length + mid.length))
        (rhs.map .dim) ((List.range (head ++ out).length).map .dim) iterators)
      (head ++ out ++ mid ++ kernel) (select lhs (head ++ out ++ mid ++ kernel) ++ padded)
      (select rhs (head ++ out ++ mid ++ kernel)) (head ++ out)
      (windowAt lhs steps head.length out.length mid.length) (select rhs)
      (·.take (head ++ out).length) := by
  have hle : (head ++ out).length ≤ (head ++ out ++ mid ++ kernel).length := by
    simp only [List.length_append]
    omega
  have htake : (head ++ out ++ mid ++ kernel).take (head ++ out).length = head ++ out := by
    rw [List.append_assoc, List.take_left]
  have hrange : ∀ d ∈ List.range (head ++ out).length, d < (head ++ out ++ mid ++ kernel).length :=
    fun d hd => Nat.lt_of_lt_of_le (List.mem_range.1 hd) hle
  have hwindows : List.Forall₂ (fun (e : AffineExpr) n => ∀ d, e.asDim? = some d →
      (head ++ out ++ mid ++ kernel)[d]? = some n)
      (windowExprs steps head.length (head.length + out.length + mid.length)) padded := by
    refine List.forall₂_iff_get.2 ⟨by simp [windowExprs, hpadded], fun i hi hi' d hd => ?_⟩
    rw [List.get_eq_getElem, asDim?_windowExprs hsteps (List.getElem_mem _)] at hd
    cases hd
  have hloops := addresses_projection hrange iterators.length
  rw [select_range hle, htake] at hloops
  refine ⟨hlen, .cons (List.rel_append (addresses_projection hlhs 0) hwindows)
      (.cons (addresses_projection hrhs _) (.cons hloops .nil)), fun d hd => ?_, fun p hp => ?_,
    fun p hp => inBounds_windowAt hlhs hwindow hp, fun p hp => inBounds_select hp hrhs,
    fun p hp => ?_⟩
  · have hmem := hcover d (hlen ▸ hd)
    simp only [Indexing.ofResults, List.map_cons, List.map_nil, List.mem_cons, List.not_mem_nil,
      or_false, exists_eq_or_imp, exists_eq_left, List.mem_append, List.mem_map,
      AffineExpr.dim.injEq, exists_eq_right]
    rcases hmem with hmem | hmem | hmem
    · exact .inl (.inl hmem)
    · exact .inr (.inl hmem)
    · exact .inr (.inr hmem)
  · have hp' : p.length = (head ++ out ++ mid ++ kernel).length := hp.length_eq
    have hout' := eval?_projection (p := p) (fun d hd => hp' ▸ hrange d hd) iterators.length
    rw [select_range (hp' ▸ hle)] at hout'
    simp only [mapped?, Indexing.ofResults, List.map_cons, List.map_nil,
      eval?_windowAt iterators.length hfits hsteps hout hkernel hlhs hwindow hp,
      eval?_projection (fun d hd => hp' ▸ hrhs d hd), hout']
  · have hsplit : head ++ out ++ mid ++ kernel = head ++ out ++ (mid ++ kernel) := by
      rw [List.append_assoc (head ++ out)]
    rw [hsplit] at hp
    obtain ⟨x, y, rfl, hx, hy⟩ := hp.exists_append
    rwa [← hx.length_eq, List.take_left]

end TensorLowering.NdArray
