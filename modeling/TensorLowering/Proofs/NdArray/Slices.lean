import TensorLowering.Proofs.NdArray.Spread

/-!
# Slices of arrays

A slice starts somewhere on every axis and goes on in strides. Main statement: a source can be
written into an array exactly when its first and its last place on every axis lie within the array;
then every element of the source is at its place, and all other positions hold what they held. What
is written without gaps is read back when every axis is narrowed to it.
-/
namespace TensorLowering.NdArray

variable {α : Type} [Inhabited α] {source dest out a b : NdArray α} {starts strides : List Int}
  {shape sizes ix p : List Nat}

/-! ## Places -/

/-- Every element of a slice within an array has a place there. -/
theorem exists_place (hstarts : starts.length = shape.length)
    (hstrides : strides.length = shape.length) (hsizes : sizes.length = shape.length)
    (hfits : ∀ e ∈ (starts.zip strides).zip (shape.zip sizes), SliceFits e.2.1 e.2.2 e.1.1 e.1.2)
    (hix : InBounds shape ix) :
    ∃ p, p.map Int.ofNat = placed (starts.zip strides) ix ∧ InBounds sizes p := by
  induction shape generalizing starts strides sizes ix with
  | nil =>
      obtain rfl := List.length_eq_zero_iff.1 hsizes
      obtain rfl := inBounds_nil.1 hix
      exact ⟨[], by simp [placed], trivial⟩
  | cons n shape ih =>
      obtain ⟨start, starts, rfl⟩ := List.exists_cons_of_length_eq_add_one hstarts
      obtain ⟨stride, strides, rfl⟩ := List.exists_cons_of_length_eq_add_one hstrides
      obtain ⟨size, sizes, rfl⟩ := List.exists_cons_of_length_eq_add_one hsizes
      obtain ⟨i, ix, rfl, hi, hix⟩ := inBounds_cons.1 hix
      simp only [List.zip_cons_cons, List.forall_mem_cons] at hfits
      obtain ⟨⟨hstart, hstride, hstop⟩, hfits⟩ := hfits
      obtain ⟨p, hp, hin⟩ := ih (by simpa using hstarts) (by simpa using hstrides)
        (by simpa using hsizes) hfits hix
      rw [if_neg (by omega)] at hstop
      have hnonneg : 0 ≤ (i : Int) * stride := Int.mul_nonneg (by omega) (by omega)
      have hlast : (i : Int) * stride ≤ (n - 1) * stride :=
        Int.mul_le_mul_of_nonneg_right (by omega) (by omega)
      refine ⟨(start + i * stride).toNat :: p, ?_, by omega, hin⟩
      rw [List.map_cons, hp, Int.ofNat_eq_natCast, Int.toNat_of_nonneg (by omega)]
      rfl

/-- What holds of all the entries of a slice holds on every axis. -/
theorem forall_slices_iff (fits : Nat → Nat → Int → Int → Prop)
    (hstarts : starts.length = shape.length) (hstrides : strides.length = shape.length)
    (hsizes : sizes.length = shape.length) :
    (∀ e ∈ (starts.zip strides).zip (shape.zip sizes), fits e.2.1 e.2.2 e.1.1 e.1.2) ↔
      ∀ axis < shape.length, fits (shape.getD axis 0) (sizes.getD axis 0) (starts.getD axis 0)
        (strides.getD axis 0) := by
  constructor
  · intro h axis haxis
    refine h ((starts.getD axis 0, strides.getD axis 0), shape.getD axis 0, sizes.getD axis 0) ?_
    refine List.mem_of_getElem? (i := axis) ?_
    simp [haxis, hstarts, hstrides, hsizes]
  · intro h e he
    obtain ⟨axis, haxis, rfl⟩ := List.getElem_of_mem he
    simp only [List.length_zip, Nat.lt_min] at haxis
    obtain ⟨⟨hstart, hstride⟩, hn, hsize⟩ := haxis
    simpa [hstart, hstride, hn, hsize] using h axis hn

theorem one_le_of_slices (hstarts : starts.length = shape.length)
    (hstrides : strides.length = shape.length) (hsizes : sizes.length = shape.length)
    (hfits : ∀ e ∈ (starts.zip strides).zip (shape.zip sizes), SliceFits e.2.1 e.2.2 e.1.1 e.1.2) :
    ∀ stride ∈ strides, 1 ≤ stride := by
  intro stride hstride
  obtain ⟨axis, haxis, rfl⟩ := List.getElem_of_mem hstride
  have hfit := (forall_slices_iff SliceFits hstarts hstrides hsizes).1 hfits axis (hstrides ▸ haxis)
  simpa [haxis] using hfit.2.1

/-- Each element is at its place. -/
theorem landed_of_place (hstarts : starts.length = source.shape.length)
    (hstrides : strides.length = source.shape.length) (hpos : ∀ stride ∈ strides, 1 ≤ stride)
    (hix : InBounds source.shape ix) (hp : p.map Int.ofNat = placed (starts.zip strides) ix) :
    landed source dest starts strides p = source.entry ix := by
  have hlen : p.length = source.shape.length := by
    have h := congrArg List.length hp
    simpa [placed, hstarts, hstrides, hix.length_eq] using h
  rw [landed, (sourceIndex?_eq_some hstarts hstrides hlen hpos).2 ⟨hix, hp⟩]

/-- No other position is written. -/
theorem landed_of_no_place (hstarts : starts.length = source.shape.length)
    (hstrides : strides.length = source.shape.length) (hpos : ∀ stride ∈ strides, 1 ≤ stride)
    (hlen : p.length = source.shape.length)
    (hp : ∀ ix, InBounds source.shape ix → p.map Int.ofNat ≠ placed (starts.zip strides) ix) :
    landed source dest starts strides p = dest.entry p := by
  rw [landed]
  cases h : sourceIndex? starts strides source.shape p with
  | none => rfl
  | some ix =>
      obtain ⟨hix, hplace⟩ := (sourceIndex?_eq_some hstarts hstrides hlen hpos).1 h
      exact absurd hplace (hp ix hix)

/-! ## Narrowing every axis -/

/-- The part of an array with the given starts and sizes, axis by axis. -/
def narrowAll (a : NdArray α) (starts : List Int) (sizes : List Nat) :
    Except ArrayError (NdArray α) :=
  (starts.zip sizes).zipIdx.foldlM (fun a range => a.narrow range.2 range.1.1 range.1.2) a

/-- The position in an array of a position in a part of it. -/
def partPosition (ranges : List (Int × Nat)) (ix : List Nat) : List Nat :=
  List.zipWith (fun range i => i + range.1.toNat) ranges ix

theorem narrow_eq_ok {axis len : Nat} {start : Int} (haxis : axis < a.rank) (hstart : 0 ≤ start)
    (hstop : start + len ≤ a.shape.getD axis 0) :
    a.narrow axis start len = .ok (.ofFn (a.shape.set axis len) fun ix =>
      a.entry (ix.modify axis (· + start.toNat))) := by
  have hcheck : a.checkAxis axis = .ok () := if_pos haxis
  have hfits : ¬ (start < 0 ∨ (a.shape.getD axis 0 : Int) < start + len) := by omega
  unfold narrow
  rw [hcheck]
  exact if_neg hfits

/-- Ranges of some sizes lie within others. -/
def RangesFit (ranges : List (Int × Nat)) (sizes : List Nat) : Prop :=
  List.Forall₂ (fun (range : Int × Nat) (size : Nat) => 0 ≤ range.1 ∧ range.1 + range.2 ≤ size)
    ranges sizes

variable {ranges : List (Int × Nat)} {front : List Nat}

theorem inBounds_partPosition (h : RangesFit ranges sizes)
    (hix : InBounds (ranges.map Prod.snd) ix) : InBounds sizes (partPosition ranges ix) := by
  induction h generalizing ix with
  | nil => simp [partPosition]
  | @cons range size ranges sizes hrange _ ih =>
      obtain ⟨i, rest, rfl, hi, hrest⟩ := inBounds_cons.1 hix
      have hlt : i + range.1.toNat < size := by omega
      exact ⟨hlt, ih hrest⟩

/-- The axes behind the first ones are narrowed, from the outermost on. -/
theorem foldlM_narrow (h : RangesFit ranges sizes) (ha : a.shape = front ++ sizes) :
    ∃ b, (ranges.zipIdx front.length).foldlM
        (fun a range => a.narrow range.2 range.1.1 range.1.2) a = .ok b ∧
      b.shape = front ++ ranges.map Prod.snd ∧
      ∀ x y, InBounds front x → InBounds (ranges.map Prod.snd) y →
        b.entry (x ++ y) = a.entry (x ++ partPosition ranges y) := by
  induction h generalizing front a with
  | nil =>
      refine ⟨a, rfl, ha, fun x y hx hy => ?_⟩
      obtain rfl := inBounds_nil.1 hy
      rfl
  | @cons range size ranges sizes hrange hranges ih =>
      obtain ⟨start, len⟩ := range
      have hsizes : a.shape.set front.length len = front ++ [len] ++ sizes := by simp [ha]
      have hfirst : a.narrow front.length start len = .ok (.ofFn (a.shape.set front.length len)
          fun ix => a.entry (ix.modify front.length (· + start.toNat))) :=
        narrow_eq_ok (by simp [rank, ha]) hrange.1 (by simpa [ha] using hrange.2)
      obtain ⟨b, hb, hshape, hentry⟩ := ih (a := .ofFn (a.shape.set front.length len) _) hsizes
      refine ⟨b, ?_, by simpa using hshape, fun x y hx hy => ?_⟩
      · rw [List.zipIdx_cons, List.foldlM_cons, hfirst]
        rwa [List.length_append] at hb
      · obtain ⟨i, y, rfl, hi, hy⟩ := inBounds_cons.1 hy
        have hnarrowed := hentry (x ++ [i]) y (hx.append (by simpa using hi)) hy
        have hin : InBounds (a.shape.set front.length len) (x ++ i :: partPosition ranges y) := by
          rw [hsizes, List.append_assoc]
          exact hx.append ⟨hi, inBounds_partPosition hranges hy⟩
        rw [List.append_assoc, List.append_assoc, List.singleton_append, List.singleton_append,
          entry_ofFn _ hin] at hnarrowed
        have hmodify : (x ++ i :: partPosition ranges y).modify front.length (· + start.toNat) =
            x ++ (i + start.toNat) :: partPosition ranges y :=
          hx.length_eq ▸ List.modifyTailIdx_add _ 0 x (i :: partPosition ranges y)
        rw [hnarrowed, hmodify]
        rfl

theorem narrowAll_eq_ok (h : RangesFit (starts.zip sizes) a.shape)
    (hlen : starts.length = sizes.length) :
    ∃ b, a.narrowAll starts sizes = .ok b ∧ b.shape = sizes ∧
      ∀ ix, InBounds sizes ix → InBounds a.shape (partPosition (starts.zip sizes) ix) ∧
        b.entry ix = a.entry (partPosition (starts.zip sizes) ix) := by
  have hsizes : (starts.zip sizes).map Prod.snd = sizes := List.map_snd_zip (by omega)
  have ha : a.shape = [] ++ a.shape := rfl
  obtain ⟨b, hb, hshape, hentry⟩ := foldlM_narrow h ha
  rw [hsizes] at hshape hentry
  exact ⟨b, hb, hshape, fun ix hix => ⟨inBounds_partPosition h (hsizes.symm ▸ hix),
    hentry [] ix trivial hix⟩⟩

/-! ## Slices without gaps -/

/-- A slice without gaps is a part of the array. -/
theorem rangesFit_of_slices (hstarts : starts.length = shape.length)
    (hsizes : sizes.length = shape.length)
    (hfits : ∀ e ∈ (starts.zip (List.replicate shape.length 1)).zip (shape.zip sizes),
      SliceFits e.2.1 e.2.2 e.1.1 e.1.2) : RangesFit (starts.zip shape) sizes := by
  induction shape generalizing starts sizes with
  | nil =>
      obtain rfl := List.length_eq_zero_iff.1 hstarts
      obtain rfl := List.length_eq_zero_iff.1 hsizes
      exact .nil
  | cons n shape ih =>
      obtain ⟨start, starts, rfl⟩ := List.exists_cons_of_length_eq_add_one hstarts
      obtain ⟨size, sizes, rfl⟩ := List.exists_cons_of_length_eq_add_one hsizes
      simp only [List.length_cons, List.replicate_succ, List.zip_cons_cons, List.forall_mem_cons]
        at hfits
      obtain ⟨⟨hstart, -, hstop⟩, hfits⟩ := hfits
      refine .cons ⟨hstart, ?_⟩ (ih (by simpa using hstarts) (by simpa using hsizes) hfits)
      split at hstop <;> omega

/-- Its places are the positions of that part. -/
theorem map_partPosition (hstarts : starts.length = shape.length)
    (hranges : RangesFit (starts.zip shape) sizes) (hix : InBounds shape ix) :
    (partPosition (starts.zip shape) ix).map Int.ofNat =
      placed (starts.zip (List.replicate shape.length 1)) ix := by
  induction shape generalizing starts sizes ix with
  | nil =>
      obtain rfl := List.length_eq_zero_iff.1 hstarts
      rfl
  | cons n shape ih =>
      obtain ⟨start, starts, rfl⟩ := List.exists_cons_of_length_eq_add_one hstarts
      obtain ⟨i, ix, rfl, -, hix⟩ := inBounds_cons.1 hix
      obtain ⟨size, rest, hrange, hrest, rfl⟩ := List.forall₂_cons_left_iff.1 hranges
      have hplace : ((i + start.toNat : Nat) : Int) = start + i * 1 := by
        have := hrange.1
        omega
      exact congrArg₂ List.cons hplace (ih (by simpa using hstarts) hrest hix)

/-- What was written without gaps is read back. -/
theorem narrowAll_landed (hstarts : starts.length = source.shape.length)
    (hsizes : dest.shape.length = source.shape.length)
    (hfits : ∀ e ∈ (starts.zip (List.replicate source.shape.length 1)).zip
      (source.shape.zip dest.shape), SliceFits e.2.1 e.2.2 e.1.1 e.1.2) :
    (ofFn dest.shape
      (landed source dest starts (List.replicate source.shape.length 1))).narrowAll starts
        source.shape = .ok source := by
  have hones : (List.replicate source.shape.length (1 : Int)).length = source.shape.length :=
    List.length_replicate
  have hranges := rangesFit_of_slices hstarts hsizes hfits
  obtain ⟨b, hb, hshape, hentry⟩ := narrowAll_eq_ok (a := .ofFn dest.shape _) hranges hstarts
  rw [hb]
  refine congrArg Except.ok (ext_entry hshape fun ix hix => ?_)
  rw [hshape] at hix
  obtain ⟨hin, hread⟩ := hentry ix hix
  exact hread.trans ((entry_ofFn _ hin).trans (landed_of_place hstarts hones
    (one_le_of_slices hstarts hones hsizes hfits) hix (map_partPosition hstarts hranges hix)))

/-- Writing a slice succeeds exactly when the slice lies within the array on every axis. It puts
every element of the source in its place and changes nothing else, and a slice without gaps is read
back by narrowing every axis. -/
theorem insertSlice_writes (source dest : NdArray α) (starts strides : List Int)
    (hsource : source.rank = dest.rank) (hstarts : starts.length = dest.rank)
    (hstrides : strides.length = dest.rank) :
    ((∃ out, source.insertSlice dest starts strides = .ok out) ↔
      ∀ axis < dest.rank, SliceFits (source.shape.getD axis 0) (dest.shape.getD axis 0)
        (starts.getD axis 0) (strides.getD axis 0)) ∧
    ∀ out, source.insertSlice dest starts strides = .ok out →
      out.shape = dest.shape ∧
      (∀ ix, InBounds source.shape ix → ∃ p, p.map Int.ofNat = placed (starts.zip strides) ix ∧
        InBounds dest.shape p ∧ out.entry p = source.entry ix) ∧
      (∀ p, InBounds dest.shape p →
        (∀ ix, InBounds source.shape ix → p.map Int.ofNat ≠ placed (starts.zip strides) ix) →
          out.entry p = dest.entry p) ∧
      ((∀ stride ∈ strides, stride = 1) → out.narrowAll starts source.shape = .ok source) := by
  have hsizes : dest.shape.length = source.shape.length := hsource.symm
  have hstarts' : starts.length = source.shape.length := hstarts.trans hsizes
  have hstrides' : strides.length = source.shape.length := hstrides.trans hsizes
  refine ⟨?_, fun out hout => ?_⟩
  · rw [← hsource]
    refine Iff.trans ⟨?_, ?_⟩ (forall_slices_iff SliceFits hstarts' hstrides' hsizes)
    · rintro ⟨out, hout⟩
      exact ((insertSlice_eq_ok_iff hsource hstarts hstrides).1 hout).1
    · exact fun hfits => ⟨_, (insertSlice_eq_ok_iff hsource hstarts hstrides).2 ⟨hfits, rfl⟩⟩
  · obtain ⟨hfits, rfl⟩ := (insertSlice_eq_ok_iff hsource hstarts hstrides).1 hout
    have hpos := one_le_of_slices hstarts' hstrides' hsizes hfits
    refine ⟨rfl, fun ix hix => ?_, fun p hin hp => ?_, fun hones => ?_⟩
    · obtain ⟨p, hp, hin⟩ := exists_place hstarts' hstrides' hsizes hfits hix
      exact ⟨p, hp, hin, (entry_ofFn _ hin).trans
        (landed_of_place hstarts' hstrides' hpos hix hp)⟩
    · exact (entry_ofFn _ hin).trans
        (landed_of_no_place hstarts' hstrides' hpos (hin.length_eq.trans hsizes) hp)
    · obtain rfl : strides = List.replicate source.shape.length 1 :=
        List.eq_replicate_iff.2 ⟨hstrides', hones⟩
      exact narrowAll_landed hstarts' hsizes hfits

/-- Two elements are written two positions apart, and next to each other they are read back. -/
theorem insertSlice_writes_pair :
    ∃ source dest out adjacent : NdArray Nat,
      source = ⟨[1, 2], #[1, 2], rfl⟩ ∧ dest = ⟨[1, 5], #[9, 9, 9, 9, 9], rfl⟩ ∧
      source.rank = dest.rank ∧ dest.rank = 2 ∧
      source.insertSlice dest [0, 1] [1, 2] = .ok out ∧ out.shape = [1, 5] ∧
      (∃ p, p.map Int.ofNat = [0, 3] ∧ out.entry p = 2) ∧ out.entry [0, 2] = 9 ∧
      source.insertSlice dest [0, 1] [1, 1] = .ok adjacent ∧
      adjacent.narrowAll [0, 1] [1, 2] = .ok source ∧
      ¬ ∃ out, source.insertSlice dest [0, 3] [1, 2] = .ok out := by
  let source : NdArray Nat := ⟨[1, 2], #[1, 2], rfl⟩
  let dest : NdArray Nat := ⟨[1, 5], #[9, 9, 9, 9, 9], rfl⟩
  have hfits : ∀ {start stride : Int}, SliceFits 2 5 start stride → ∀ axis < dest.rank,
      SliceFits (source.shape.getD axis 0) (dest.shape.getD axis 0) ([0, start].getD axis 0)
        ([1, stride].getD axis 0) := by
    intro start stride hfit axis haxis
    match axis, haxis with
    | 0, _ =>
        have hfirst : SliceFits 1 1 0 1 := ⟨by decide, by decide, by decide⟩
        exact hfirst
    | 1, _ => exact hfit
  obtain ⟨hspaced, hout⟩ := insertSlice_writes source dest [0, 1] [1, 2] rfl rfl rfl
  obtain ⟨out, h⟩ := hspaced.2 (hfits ⟨by decide, by decide, by decide⟩)
  obtain ⟨hshape, hplaces, hothers, -⟩ := hout out h
  obtain ⟨p, hp, -, hentry⟩ := hplaces [0, 1] (by decide)
  have hfree : out.entry [0, 2] = 9 := by
    refine hothers [0, 2] (by decide) fun ix hix hplace => ?_
    obtain ⟨i, ix, rfl, -, hix⟩ := inBounds_cons.1 hix
    obtain ⟨j, ix, rfl, -, hix⟩ := inBounds_cons.1 hix
    have hlast : (2 : Int) = 1 + j * 2 := (List.cons.inj (List.cons.inj hplace).2).1
    omega
  obtain ⟨hadjacent, hback⟩ := insertSlice_writes source dest [0, 1] [1, 1] rfl rfl rfl
  obtain ⟨adjacent, h'⟩ := hadjacent.2 (hfits ⟨by decide, by decide, by decide⟩)
  have hlate := (insertSlice_writes source dest [0, 3] [1, 2] rfl rfl rfl).1
  refine ⟨source, dest, out, adjacent, rfl, rfl, rfl, rfl, h, hshape, ⟨p, hp, hentry⟩, hfree, h',
    (hback adjacent h').2.2.2 (by decide), fun hwritten => ?_⟩
  exact absurd (hlate.1 hwritten 1 (by decide)).2.2 (by decide)

end TensorLowering.NdArray
