import Mathlib.Data.List.Forall2
import TensorLowering.NdArray.Reduce
import TensorLowering.Proofs.Evaluation.Runs

/-!
# Bounds of loops

The bounds of the loops of a reduction are found when the sizes of the axes that plain loop
variables address agree with them, and every loop is addressed somewhere. Conversely, bounds that
were found agree with these sizes.
-/
namespace TensorLowering.NdArray

open Numeric

variable {found found' : LoopBounds} {bounds : List Nat} {loop size : Nat} {m : AffineMap}
  {shape : List Nat}

/-- Every bound that has been found is the one of the list. -/
structure LoopBounds.Agrees (found : LoopBounds) (bounds : List Nat) : Prop where
  length : found.length = bounds.length
  get : ∀ {d n : Nat}, found[d]? = some (some n) → bounds[d]? = some n

/-- Later bounds keep the ones that have been found. -/
def LoopBounds.Le (found found' : LoopBounds) : Prop :=
  ∀ {d n : Nat}, found[d]? = some (some n) → found'[d]? = some (some n)

/-- The axes that the map addresses with plain loop variables have the bounds of the loops. -/
def Addresses (bounds : List Nat) (m : AffineMap) (shape : List Nat) : Prop :=
  List.Forall₂ (fun e n => ∀ d, e.asDim? = some d → bounds[d]? = some n) m.results shape

theorem bindLoop_eq_ok (h : found.Agrees bounds) (hloop : bounds[loop]? = some size) :
    ∃ found', bindLoop found loop size = .ok found' ∧ found'.Agrees bounds ∧ found.Le found' ∧
      found'[loop]? = some (some size) := by
  have hlt : loop < found.length := by
    rw [h.length]
    exact (List.getElem?_eq_some_iff.1 hloop).1
  cases hget : found[loop]? with
  | none =>
      rw [List.getElem?_eq_none_iff] at hget
      omega
  | some bound =>
      cases bound with
      | some n =>
          have hn : n = size := Option.some.inj ((h.get hget).symm.trans hloop)
          refine ⟨found, ?_, h, fun hd => hd, hn ▸ hget⟩
          simp [bindLoop, hget, hn]
      | none =>
          refine ⟨found.set loop (some size), by simp [bindLoop, hget], ⟨?_, ?_⟩, ?_, ?_⟩
          · rw [List.length_set, h.length]
          · intro d n hd
            rw [List.getElem?_set] at hd
            split at hd
            next he =>
              subst he
              cases hd
              exact hloop
            next => exact h.get hd
          · intro d n hd
            rw [List.getElem?_set]
            split
            next he =>
              subst he
              rw [hget] at hd
              cases hd
            next => exact hd
          · rw [List.getElem?_set, if_pos rfl, if_pos hlt]

theorem bindMap_eq_ok (operand : Nat) (h : found.Agrees bounds) (hm : Addresses bounds m shape) :
    ∃ found', bindMap found operand m shape = .ok found' ∧ found'.Agrees bounds ∧
      found.Le found' ∧ ∀ d, .dim d ∈ m.results → ∃ n, found'[d]? = some (some n) := by
  obtain ⟨numDims, results⟩ := m
  have hlen : ¬ results.length ≠ shape.length := not_not.2 hm.length_eq
  simp only [bindMap, hlen, ↓reduceIte]
  change List.Forall₂ _ results shape at hm
  clear hlen
  induction hm generalizing found with
  | nil => exact ⟨found, rfl, h, fun hd => hd, by simp⟩
  | @cons e n results shape he _ ih =>
      rw [List.zip_cons_cons, List.foldlM_cons]
      cases hdim : e.asDim? with
      | none =>
          obtain ⟨found', hrun, hagrees, hle, hdims⟩ := ih h
          refine ⟨found', hrun, hagrees, hle, fun d hd => ?_⟩
          rcases List.mem_cons.1 hd with rfl | hd
          · cases hdim
          · exact hdims d hd
      | some loop =>
          obtain ⟨found₁, hbind, hagrees₁, hle₁, hloop⟩ := bindLoop_eq_ok h (he loop hdim)
          obtain ⟨found', hrun, hagrees, hle, hdims⟩ := ih hagrees₁
          refine ⟨found', ?_, hagrees, fun hd => hle (hle₁ hd), fun d hd => ?_⟩
          · simp only [hbind, bind, Except.bind]
            exact hrun
          · rcases List.mem_cons.1 hd with rfl | hd
            · cases hdim
              exact ⟨n, hle hloop⟩
            · exact hdims d hd

theorem bindMaps_eq_ok {maps : List AffineMap} {shapes : List (List Nat)} (operand : Nat)
    (h : found.Agrees bounds) (hmaps : List.Forall₂ (Addresses bounds) maps shapes) :
    ∃ found', ((maps.zip shapes).zipIdx operand).foldlM (fun bounds ((map, shape), operand) =>
        bindMap bounds operand map shape) found = .ok found' ∧ found'.Agrees bounds ∧
      found.Le found' ∧
      ∀ d, (∃ m ∈ maps, .dim d ∈ m.results) → ∃ n, found'[d]? = some (some n) := by
  induction hmaps generalizing found operand with
  | nil => exact ⟨found, rfl, h, fun hd => hd, by simp⟩
  | @cons m shape maps shapes hm _ ih =>
      obtain ⟨found₁, hbind, hagrees₁, hle₁, hdims₁⟩ := bindMap_eq_ok operand h hm
      obtain ⟨found', hrun, hagrees, hle, hdims⟩ := ih (operand + 1) hagrees₁
      refine ⟨found', ?_, hagrees, fun hd => hle (hle₁ hd), ?_⟩
      · rw [List.zip_cons_cons, List.zipIdx_cons, List.foldlM_cons]
        simp only [hbind, bind, Except.bind]
        exact hrun
      · rintro d ⟨m', hm', hd⟩
        rcases List.mem_cons.1 hm' with rfl | hm'
        · obtain ⟨n, hn⟩ := hdims₁ d hd
          exact ⟨n, hle hn⟩
        · exact hdims d ⟨m', hm', hd⟩

/-- Bounds are complete when every loop has one. The loops are counted from `k` on. -/
theorem mapM_found_eq_ok (k : Nat) : (found.zipIdx k).mapM (fun (bound, loop) =>
      match bound with
      | some n => (.ok n : Except ArrayError Nat)
      | none => .error (.unboundLoop loop)) = .ok bounds ↔ found = bounds.map some := by
  induction found generalizing bounds k with
  | nil => cases bounds <;> simp [pure, Except.pure]
  | cons bound found ih =>
      rw [List.zipIdx_cons, List.mapM_cons, Except.bind_eq_ok]
      cases bound with
      | none =>
          constructor
          · rintro ⟨_, ⟨⟩, _⟩
          · intro h
            cases bounds <;> cases h
      | some n =>
          cases bounds with
          | nil => simp [Except.bind_eq_ok, pure, Except.pure]
          | cons n' bounds =>
              simp [Except.bind_eq_ok, pure, Except.pure, ← ih (k + 1), and_comm]

/-- The bounds of the loops are those with which the sizes of all addressed axes agree. -/
theorem loopBounds_eq_ok {ix : Indexing} {shapes : List (List Nat)}
    (hlen : bounds.length = ix.numLoops) (hmaps : List.Forall₂ (Addresses bounds) ix.maps shapes)
    (hcover : ∀ d < ix.numLoops, ∃ m ∈ ix.maps, .dim d ∈ m.results) :
    loopBounds ix shapes = .ok bounds := by
  have hstart : LoopBounds.Agrees (List.replicate ix.numLoops none) bounds := by
    refine ⟨by simp [hlen], fun {d n} hd => ?_⟩
    rw [List.getElem?_replicate] at hd
    split at hd <;> cases hd
  obtain ⟨found, hrun, hagrees, -, hdims⟩ := bindMaps_eq_ok 0 hstart hmaps
  have hfound : found = bounds.map some := by
    refine List.ext_getElem (by rw [hagrees.length, List.length_map]) fun d hd hd' => ?_
    rw [List.length_map] at hd'
    obtain ⟨n, hn⟩ := hdims d (hcover d (hlen ▸ hd'))
    have hbound := hagrees.get hn
    rw [List.getElem?_eq_getElem hd] at hn
    rw [List.getElem?_eq_getElem hd'] at hbound
    rw [Option.some.inj hn, List.getElem_map, Option.some.inj hbound]
  rw [loopBounds, hrun]
  exact (mapM_found_eq_ok 0).2 hfound

/-! ## What bounds say of the sizes -/

/-- The axes that plain loop variables address have the bounds that have been found. -/
def LoopBounds.Covers (found : LoopBounds) (m : AffineMap) (shape : List Nat) : Prop :=
  List.Forall₂ (fun e n => ∀ d, e.asDim? = some d → found[d]? = some (some n)) m.results shape

theorem LoopBounds.Covers.mono (h : found.Covers m shape) (hle : found.Le found') :
    found'.Covers m shape :=
  List.Forall₂.imp (fun _ _ he d hd => hle (he d hd)) h

theorem le_of_bindLoop (h : bindLoop found loop size = .ok found') :
    found.Le found' ∧ found'[loop]? = some (some size) := by
  unfold bindLoop at h
  split at h
  next => cases h
  next hfree =>
    cases h
    obtain ⟨hlt, -⟩ := List.getElem?_eq_some_iff.1 hfree
    refine ⟨fun {d n} hd => ?_, by simp [hlt]⟩
    rw [List.getElem?_set]
    split
    next he =>
      subst he
      cases hfree.symm.trans hd
    next => exact hd
  next bound hbound =>
    split at h
    next hsame =>
      cases h
      exact ⟨fun hd => hd, hsame ▸ hbound⟩
    next => cases h

theorem covers_of_bindMap {operand : Nat} (h : bindMap found operand m shape = .ok found') :
    found.Le found' ∧ found'.Covers m shape := by
  obtain ⟨numDims, results⟩ := m
  unfold bindMap at h
  split at h
  next => cases h
  next hlen =>
    replace hlen : results.length = shape.length := not_not.1 hlen
    change found.Le found' ∧ List.Forall₂ _ results shape
    induction results generalizing found shape with
    | nil =>
        obtain rfl := List.length_eq_zero_iff.1 hlen.symm
        cases h
        exact ⟨fun hd => hd, .nil⟩
    | cons e results ih =>
        cases shape with
        | nil => cases hlen
        | cons n shape =>
            rw [List.zip_cons_cons, List.foldlM_cons] at h
            obtain ⟨found₁, hfirst, hrest⟩ := Except.bind_eq_ok.1 h
            obtain ⟨hle, hcovers⟩ := ih hrest (Nat.succ.inj hlen)
            dsimp only at hfirst
            split at hfirst
            next d hdim =>
              obtain ⟨hle₁, hloop⟩ := le_of_bindLoop hfirst
              refine ⟨fun hd => hle (hle₁ hd), .cons (fun d' hd' => ?_) hcovers⟩
              cases hdim.symm.trans hd'
              exact hle hloop
            next hdim =>
              cases hfirst
              exact ⟨hle, .cons (fun d' hd' => by cases hdim.symm.trans hd') hcovers⟩

theorem covers_of_bindMaps {maps : List AffineMap} {shapes : List (List Nat)} {operand : Nat}
    (hlen : maps.length = shapes.length)
    (h : ((maps.zip shapes).zipIdx operand).foldlM (fun bounds ((map, shape), operand) =>
        bindMap bounds operand map shape) found = .ok found') :
    found.Le found' ∧ List.Forall₂ found'.Covers maps shapes := by
  induction maps generalizing found shapes operand with
  | nil =>
      obtain rfl := List.length_eq_zero_iff.1 hlen.symm
      cases h
      exact ⟨fun hd => hd, .nil⟩
  | cons m maps ih =>
      cases shapes with
      | nil => cases hlen
      | cons shape shapes =>
          rw [List.zip_cons_cons, List.zipIdx_cons, List.foldlM_cons] at h
          obtain ⟨found₁, hfirst, hrest⟩ := Except.bind_eq_ok.1 h
          obtain ⟨hle₁, hcovers₁⟩ := covers_of_bindMap hfirst
          obtain ⟨hle, hcovers⟩ := ih (Nat.succ.inj hlen) hrest
          exact ⟨fun hd => hle (hle₁ hd), .cons (hcovers₁.mono hle) hcovers⟩

/-- The sizes of the axes that plain loop variables address are the bounds of their loops. -/
theorem addresses_of_loopBounds {ix : Indexing} {shapes : List (List Nat)}
    (hlen : ix.maps.length = shapes.length) (h : loopBounds ix shapes = .ok bounds) :
    List.Forall₂ (Addresses bounds) ix.maps shapes := by
  obtain ⟨found, hfound, hbounds⟩ := Except.bind_eq_ok.1 h
  obtain rfl := (mapM_found_eq_ok 0).1 hbounds
  refine (covers_of_bindMaps hlen hfound).2.imp fun m shape hcovers => ?_
  refine List.Forall₂.imp (fun e n he d hd => ?_) hcovers
  have hbound := he d hd
  rw [List.getElem?_map] at hbound
  obtain ⟨n', hn', hsome⟩ := Option.map_eq_some_iff.1 hbound
  rw [hn', Option.some.inj hsome]

/-! ## Loops that nothing bounds -/

/-- What binding a loop that the map uses as it is preserves, binding all of them preserves. -/
theorem bindMap_preserves {P : LoopBounds → Prop} {operand : Nat}
    (hstep : ∀ (x y : LoopBounds) (loop size : Nat), .dim loop ∈ m.results → P x →
      bindLoop x loop size = .ok y → P y)
    (hfound : P found) (h : bindMap found operand m shape = .ok found') : P found' := by
  obtain ⟨numDims, results⟩ := m
  unfold bindMap at h
  split at h
  next => cases h
  next hlen =>
    clear hlen
    change ∀ (x y : LoopBounds) (loop size : Nat), .dim loop ∈ results → P x →
      bindLoop x loop size = .ok y → P y at hstep
    change (results.zip shape).foldlM _ found = _ at h
    induction results generalizing found shape with
    | nil =>
        cases h
        exact hfound
    | cons e results ih =>
        cases shape with
        | nil =>
            cases h
            exact hfound
        | cons n shape =>
            rw [List.zip_cons_cons, List.foldlM_cons] at h
            obtain ⟨found₁, hfirst, hrest⟩ := Except.bind_eq_ok.1 h
            have hfound₁ : P found₁ := by
              cases e with
              | dim d => exact hstep _ _ d n List.mem_cons_self hfound hfirst
              | const | sum | scaled =>
                  cases hfirst
                  exact hfound
            exact ih hfound₁ (fun x y loop size hloop =>
              hstep x y loop size (List.mem_cons_of_mem e hloop)) hrest

theorem bindMaps_preserves {P : LoopBounds → Prop} {maps : List AffineMap}
    {shapes : List (List Nat)} {operand : Nat}
    (hstep : ∀ (x y : LoopBounds) (loop size : Nat), (∃ m ∈ maps, .dim loop ∈ m.results) → P x →
      bindLoop x loop size = .ok y → P y)
    (hfound : P found)
    (h : ((maps.zip shapes).zipIdx operand).foldlM (fun bounds ((map, shape), operand) =>
        bindMap bounds operand map shape) found = .ok found') : P found' := by
  induction maps generalizing found shapes operand with
  | nil =>
      cases h
      exact hfound
  | cons m maps ih =>
      cases shapes with
      | nil =>
          cases h
          exact hfound
      | cons shape shapes =>
          rw [List.zip_cons_cons, List.zipIdx_cons, List.foldlM_cons] at h
          obtain ⟨found₁, hfirst, hrest⟩ := Except.bind_eq_ok.1 h
          have hfound₁ : P found₁ := bindMap_preserves
            (fun x y loop size hloop => hstep x y loop size ⟨m, List.mem_cons_self, hloop⟩)
            hfound hfirst
          refine ih (fun x y loop size hloop => ?_) hfound₁ hrest
          obtain ⟨m', hm', hmem⟩ := hloop
          exact hstep x y loop size ⟨m', List.mem_cons_of_mem m hm', hmem⟩

/-- Binding a loop leaves the number of loops and the bounds of the others as they are. -/
theorem others_of_bindLoop (h : bindLoop found loop size = .ok found') :
    found'.length = found.length ∧ ∀ d, loop ≠ d → found'[d]? = found[d]? := by
  unfold bindLoop at h
  split at h
  next => cases h
  next =>
    cases h
    exact ⟨List.length_set, fun d hd => List.getElem?_set_ne hd⟩
  next =>
    split at h
    · cases h
      exact ⟨rfl, fun _ _ => rfl⟩
    · cases h

/-- Bounds are found for all loops exactly when each is used as it is, and always for axes of the
same size. -/
theorem loopBounds_eq_ok_iff {ix : Indexing} {shapes : List (List Nat)}
    (hlen : ix.maps.length = shapes.length) : loopBounds ix shapes = .ok bounds ↔
      bounds.length = ix.numLoops ∧ List.Forall₂ (Addresses bounds) ix.maps shapes ∧
        ∀ d < ix.numLoops, ∃ m ∈ ix.maps, .dim d ∈ m.results := by
  refine ⟨fun h => ?_, fun ⟨hlength, hmaps, hcover⟩ => loopBounds_eq_ok hlength hmaps hcover⟩
  have haddresses := addresses_of_loopBounds hlen h
  obtain ⟨found, hfound, hbounds⟩ := Except.bind_eq_ok.1 h
  obtain rfl := (mapM_found_eq_ok 0).1 hbounds
  have hlength : bounds.length = ix.numLoops := by
    have hkeeps := bindMaps_preserves (P := fun x => x.length = ix.numLoops)
      (fun x y loop size _ hx hy => (others_of_bindLoop hy).1.trans hx)
      List.length_replicate hfound
    rwa [List.length_map] at hkeeps
  refine ⟨hlength, haddresses, fun d hd => ?_⟩
  by_contra hnone
  -- no map uses the loop as it is, so that it has no bound in the end
  have hkeeps := bindMaps_preserves (P := fun x => x[d]? = some none)
    (fun x y loop size hloop hx hy => by
      rw [(others_of_bindLoop hy).2 d (by rintro rfl; exact hnone hloop), hx])
    (by simp [hd]) hfound
  simp [hlength, hd] at hkeeps

/-! ## Errors -/

/-- Each error of the computation is one of those that are said. -/
def FailsBy {ε α : Type} (P : ε → Prop) (x : Except ε α) : Prop := ∀ e, x = .error e → P e

namespace FailsBy

variable {ε α β : Type} {P : ε → Prop}

theorem ok (a : α) : FailsBy P (.ok a) := nofun

theorem error {e : ε} (h : P e) : FailsBy P (.error e : Except ε α) := by
  rintro _ ⟨⟩
  exact h

theorem bind {x : Except ε α} {f : α → Except ε β} (h : FailsBy P x) (hf : ∀ a, FailsBy P (f a)) :
    FailsBy P (x >>= f) := by
  cases x with
  | error e => exact error (h e rfl)
  | ok a => exact hf a

theorem foldlM {f : β → α → Except ε β} (h : ∀ b a, FailsBy P (f b a)) (xs : List α) (b : β) :
    FailsBy P (xs.foldlM f b) := by
  induction xs generalizing b with
  | nil => exact ok b
  | cons x xs ih =>
      rw [List.foldlM_cons]
      exact (h b x).bind ih

theorem mapM {f : α → Except ε β} (h : ∀ a, FailsBy P (f a)) (xs : List α) :
    FailsBy P (xs.mapM f) := by
  induction xs with
  | nil => exact ok []
  | cons x xs ih =>
      rw [List.mapM_cons]
      exact (h x).bind fun _ => ih.bind fun _ => ok _

end FailsBy

/-- Where no bounds are found, the shapes are at fault. -/
theorem failsBy_loopBounds (ix : Indexing) (shapes : List (List Nat)) :
    FailsBy (fun e : ArrayError => e.kind = .shape) (loopBounds ix shapes) := by
  have hloop : ∀ (found : LoopBounds) (loop size : Nat),
      FailsBy (fun e : ArrayError => e.kind = .shape) (bindLoop found loop size) := by
    intro found loop size
    unfold bindLoop
    split
    · exact .error rfl
    · exact .ok _
    · split
      · exact .ok _
      · exact .error rfl
  refine .bind (.foldlM (fun found entry => ?_) _ _) fun found => .mapM (fun entry => ?_) _
  · obtain ⟨⟨m, shape⟩, operand⟩ := entry
    change FailsBy _ (bindMap found operand m shape)
    unfold bindMap
    split
    · exact .error rfl
    · refine .foldlM (fun found entry => ?_) _ _
      dsimp only
      split
      · exact hloop _ _ _
      · exact .ok _
  · dsimp only
    split
    · exact .ok _
    · exact .error rfl

/-- Two axes that one loop variable addresses have the same size. -/
theorem Addresses.agree {m m' : AffineMap} {shape shape' : List Nat} {i j d n n' : Nat}
    (h : Addresses bounds m shape) (h' : Addresses bounds m' shape')
    (hi : m.results[i]? = some (.dim d)) (hj : m'.results[j]? = some (.dim d))
    (hn : shape[i]? = some n) (hn' : shape'[j]? = some n') : n = n' := by
  have hbound : ∀ {m : AffineMap} {shape : List Nat} {i n : Nat}, Addresses bounds m shape →
      m.results[i]? = some (.dim d) → shape[i]? = some n → bounds[d]? = some n := by
    intro m shape i n h hi hn
    obtain ⟨hlt, hi⟩ := List.getElem?_eq_some_iff.1 hi
    obtain ⟨hlt', hn⟩ := List.getElem?_eq_some_iff.1 hn
    have hget := List.Forall₂.get h hlt hlt'
    simp only [List.get_eq_getElem, hi, hn] at hget
    exact hget d rfl
  exact Option.some.inj ((hbound h hi hn).symm.trans (hbound h' hj hn'))

/-- A reduction that runs has bounds for its loops. -/
theorem exists_addresses {ix : Indexing} {combine : Combine} {lhs rhs init out : NdArray Binary64}
    {zs : Binary64 × Binary64} (hlen : ix.maps.length = 3)
    (h : reduce ix combine lhs rhs zs init = .ok out) :
    ∃ bounds, List.Forall₂ (Addresses bounds) ix.maps [lhs.shape, rhs.shape, init.shape] := by
  obtain ⟨bounds, hbounds, -⟩ := Except.bind_eq_ok.1 h
  exact ⟨bounds, addresses_of_loopBounds hlen hbounds⟩

end TensorLowering.NdArray
