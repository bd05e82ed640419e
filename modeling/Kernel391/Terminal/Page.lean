import Kernel391.Base.Loop
import Kernel391.Model.Console

/-!
# Pages of video memory

What the console functions do to a page: with the cursor on the page they write only to the page,
keep the cursor on it, and what they leave there depends only on what the page held.
-/

namespace Kernel391
open Base

/-- The addresses of the page at `base`. -/
def OnPage (base a : Nat) : Prop := base ≤ a ∧ a < base + fourKb

/-- The addresses outside the page at `base`. -/
def OffPage (base a : Nat) : Prop := ¬ OnPage base a

/-- The page at `base'` of `m'` holds what the page at `base` of `m` holds. -/
def SameCells (base base' : Nat) (m m' : Mem) : Prop := ∀ k < fourKb, m' (base' + k) = m (base + k)

/-- The cursor is on the page. -/
def Fits (x y : Nat) : Prop := x < numCols ∧ y < numRows

/-- Whether a cursor is on the screen is a comparison. -/
instance (x y : Nat) : Decidable (Fits x y) := inferInstanceAs (Decidable (_ ∧ _))

section Cells

variable {base base' i j : Nat} {m m' : Mem}

/-- Both bytes of a cell are on the page. -/
lemma onPage_cellAddr (base : Nat) (hi : i < numRows) (hj : j < numCols) :
    OnPage base (cellAddr base i j) ∧ OnPage base (cellAddr base i j + 1) := by
  simp only [numRows, numCols] at hi hj
  simp only [OnPage, cellAddr, numCols, fourKb]
  omega

/-- Pages have the same cells exactly when memory agrees on them. -/
lemma sameCells_iff : SameCells base base m m' ↔ SameOn (OnPage base) m m' := by
  constructor
  · rintro h a ⟨low, high⟩
    obtain ⟨k, rfl⟩ := Nat.exists_eq_add_of_le low
    exact h k (by omega)
  · intro h k hk
    exact h (base + k) ⟨by omega, by omega⟩

/-- The same store to both pages. -/
lemma SameCells.update (h : SameCells base base' m m') {a a' : Nat} (v : UInt8)
    (place : a' + base = a + base') :
    SameCells base base' (Function.update m a v) (Function.update m' a' v) := by
  intro k hk
  by_cases here : base + k = a
  · have there : base' + k = a' := by omega
    rw [here, there, Function.update_self, Function.update_self]
  · have elsewhere : base' + k ≠ a' := by omega
    rw [Function.update_of_ne here, Function.update_of_ne elsewhere]
    exact h k hk

/-- A cell has the same place on every page. -/
lemma cellAddr_place (base base' i j : Nat) :
    cellAddr base' i j + base = cellAddr base i j + base' := by
  rw [cellAddr, cellAddr]
  omega

/-- A byte of a cell is the same on both pages. -/
lemma SameCells.cell (h : SameCells base base' m m') (hi : i < numRows) (hj : j < numCols) :
    m' (cellAddr base' i j) = m (cellAddr base i j) ∧
      m' (cellAddr base' i j + 1) = m (cellAddr base i j + 1) := by
  simp only [numRows, numCols] at hi hj
  simp only [cellAddr, numCols, Nat.add_assoc]
  exact ⟨h _ (by rw [fourKb]; omega), h _ (by rw [fourKb]; omega)⟩

/-- Setting a cell changes its page only. -/
lemma setCell_off (c a : UInt8) (hi : i < numRows) (hj : j < numCols) :
    SameOn (OffPage base) m (setCell base i j c a m) := by
  obtain ⟨on, on'⟩ := onPage_cellAddr base hi hj
  have first : SameOn (OffPage base) m (Function.update m (cellAddr base i j) c) :=
    .update c (not_not.mpr on)
  exact first.trans (.update a (not_not.mpr on'))

/-- A cell set on both pages keeps them the same. -/
lemma setCell_both (c a : UInt8) (h : SameCells base base' m m') :
    SameCells base base' (setCell base i j c a m) (setCell base' i j c a m') := by
  have place := cellAddr_place base base' i j
  exact (h.update c place).update a (by omega)

/-- Lifting a cell changes its page only. -/
lemma liftCell_off (hi : i + 1 < numRows) (hj : j < numCols) :
    SameOn (OffPage base) m (liftCell base i j m) := by
  obtain ⟨on, on'⟩ := onPage_cellAddr base (Nat.lt_of_succ_lt hi) hj
  rw [liftCell]
  apply SameOn.trans (.update _ (not_not.mpr on))
  exact .update _ (not_not.mpr on')

/-- A cell lifted on both pages keeps them the same. -/
lemma liftCell_both (hi : i + 1 < numRows) (hj : j < numCols) (h : SameCells base base' m m') :
    SameCells base base' (liftCell base i j m) (liftCell base' i j m') := by
  have place := cellAddr_place base base' i j
  have first : SameCells base base'
      (Function.update m (cellAddr base i j) (m (cellAddr base (i + 1) j)))
      (Function.update m' (cellAddr base' i j) (m' (cellAddr base' (i + 1) j))) := by
    rw [(h.cell hi hj).1]
    exact h.update _ place
  rw [liftCell, liftCell, (first.cell hi hj).2]
  exact first.update _ (by omega)

/-- Lifting the rows changes their page only. -/
lemma liftRows_off : SameOn (OffPage base) m (liftRows base m) := by
  unfold liftRows
  apply SameOn.foldl
  intro i hi m
  have hi := List.mem_range.mp hi
  apply SameOn.foldl
  intro j hj m
  exact liftCell_off (by omega) (List.mem_range.mp hj)

/-- Rows lifted on both pages keep them the same. -/
lemma liftRows_both (h : SameCells base base' m m') :
    SameCells base base' (liftRows base m) (liftRows base' m') := by
  unfold liftRows
  apply List.foldl_rel h
  intro i hi m m' h
  have hi := List.mem_range.mp hi
  apply List.foldl_rel h
  intro j hj m m' h
  exact liftCell_both (by omega) (List.mem_range.mp hj) h

/-- Blanking a row changes its page only. -/
lemma blankRow_off (hi : i < numRows) : SameOn (OffPage base) m (blankRow base i m) := by
  unfold blankRow
  apply SameOn.foldl
  intro j hj m
  exact setCell_off 32 attrib hi (List.mem_range.mp hj)

/-- A row blanked on both pages keeps them the same. -/
lemma blankRow_both (h : SameCells base base' m m') :
    SameCells base base' (blankRow base i m) (blankRow base' i m') := by
  unfold blankRow
  apply List.foldl_rel h
  intro j _ m m' h
  exact setCell_both 32 attrib h

/-- Blanking all rows changes their page only. -/
lemma blankRows_off : SameOn (OffPage base) m (blankRows base m) := by
  unfold blankRows
  apply SameOn.foldl
  intro i hi m
  exact blankRow_off (List.mem_range.mp hi)

/-- Rows blanked on both pages keep them the same. -/
lemma blankRows_both (h : SameCells base base' m m') :
    SameCells base base' (blankRows base m) (blankRows base' m') := by
  unfold blankRows
  apply List.foldl_rel h
  intro i _ m m' h
  exact blankRow_both h

end Cells

/-- Two pages hold the same and have the same cursor. -/
structure Page.Same (base : Nat) (p q : Page) : Prop where
  mem : SameOn (OnPage base) p.mem q.mem
  x : q.x = p.x
  y : q.y = p.y

/-- The page `q` at `base'` holds the same as the page `p` at `base` and has the same cursor. -/
structure Page.Alike (base base' : Nat) (p q : Page) : Prop where
  mem : SameCells base base' p.mem q.mem
  x : q.x = p.x
  y : q.y = p.y

section Output

variable {base base' : Nat} {p q : Page}

/-- At one address to be alike is to be the same. -/
lemma Page.alike_iff : Page.Alike base base p q ↔ Page.Same base p q :=
  ⟨fun h => ⟨sameCells_iff.mp h.mem, h.x, h.y⟩, fun h => ⟨sameCells_iff.mpr h.mem, h.x, h.y⟩⟩

/-- Scrolling brings a cursor back that has left by one row. -/
lemma verticalScrollingAt_spec (base : Nat) (p : Page) (hx : p.x < numCols) :
    Fits (verticalScrollingAt base p).x (verticalScrollingAt base p).y ∧
      SameOn (OffPage base) p.mem (verticalScrollingAt base p).mem := by
  rw [verticalScrollingAt]
  split_ifs with h
  · refine ⟨⟨hx, ?_⟩, liftRows_off.trans (blankRow_off ?_)⟩
    · show numRows - 1 < numRows
      decide
    · decide
  · exact ⟨⟨hx, by omega⟩, .refl⟩

/-- Scrolling keeps pages alike. -/
lemma verticalScrollingAt_alike (h : Page.Alike base base' p q) :
    Page.Alike base base' (verticalScrollingAt base p) (verticalScrollingAt base' q) := by
  rw [verticalScrollingAt, verticalScrollingAt, h.y]
  split_ifs
  · exact ⟨blankRow_both (liftRows_both h.mem), h.x, rfl⟩
  · exact h

/-- A character keeps the cursor on the page and changes nothing outside it. -/
lemma putcAt_spec (base : Nat) (p : Page) (c : UInt8) (h : Fits p.x p.y) :
    Fits (putcAt base c p).x (putcAt base c p).y ∧
      SameOn (OffPage base) p.mem (putcAt base c p).mem := by
  obtain ⟨hx, hy⟩ := h
  have zero : 0 < numCols := by decide
  have cell : SameOn (OffPage base) p.mem (setCell base p.y p.x c attrib p.mem) :=
    setCell_off c attrib hy hx
  rw [putcAt]
  dsimp only
  split_ifs
  · exact verticalScrollingAt_spec base { p with x := 0, y := p.y + 1 } zero
  · obtain ⟨fits, off⟩ := verticalScrollingAt_spec base
      { mem := setCell base p.y p.x c attrib p.mem, x := 0, y := p.y + 1 } zero
    exact ⟨fits, cell.trans off⟩
  next _ hlast =>
    obtain ⟨fits, off⟩ := verticalScrollingAt_spec base
      { mem := setCell base p.y p.x c attrib p.mem, x := p.x + 1, y := p.y }
        (Nat.lt_of_not_le hlast)
    exact ⟨fits, cell.trans off⟩

/-- A character does the same to every page. -/
lemma putcAt_alike (c : UInt8) (h : Page.Alike base base' p q) :
    Page.Alike base base' (putcAt base c p) (putcAt base' c q) := by
  rw [putcAt, putcAt, h.x, h.y]
  dsimp only
  split_ifs
  · exact verticalScrollingAt_alike ⟨h.mem, rfl, rfl⟩
  · exact verticalScrollingAt_alike ⟨setCell_both c attrib h.mem, rfl, rfl⟩
  · exact verticalScrollingAt_alike ⟨setCell_both c attrib h.mem, rfl, rfl⟩

/-- What a character leaves on a page only depends on the page. -/
lemma putcAt_same (c : UInt8) (h : Page.Same base p q) :
    Page.Same base (putcAt base c p) (putcAt base c q) :=
  Page.alike_iff.mp (putcAt_alike c (Page.alike_iff.mpr h))

end Output

/-! ## What is in the cells -/

/-- A cell of the page at `base`: its character and its attribute. -/
def cellOf (base : Nat) (m : Mem) (i j : Nat) : UInt8 × UInt8 :=
  (m (cellAddr base i j), m (cellAddr base i j + 1))

section Contents

variable {base i j i' j' : Nat} {m : Mem}

/-- Different cells have different addresses. -/
lemma cellAddr_inj (hj : j < numCols) (hj' : j' < numCols)
    (h : cellAddr base i' j' = cellAddr base i j) : i' = i ∧ j' = j := by
  simp only [cellAddr, numCols] at h hj hj'
  omega

/-- No character is where an attribute is. -/
lemma cellAddr_even (base i j i' j' : Nat) : cellAddr base i' j' ≠ cellAddr base i j + 1 := by
  simp only [cellAddr, numCols]
  omega

/-- A store to one cell. -/
lemma cellOf_setCell (c a : UInt8) (hj : j < numCols) (hj' : j' < numCols) :
    cellOf base (setCell base i j c a m) i' j'
      = if i' = i ∧ j' = j then (c, a) else cellOf base m i' j' := by
  have odd := cellAddr_even base i j i' j'
  have odd' := (cellAddr_even base i' j' i j).symm
  by_cases here : i' = i ∧ j' = j
  · obtain ⟨rfl, rfl⟩ := here
    rw [if_pos ⟨rfl, rfl⟩, cellOf, setCell, Function.update_self, Function.update_of_ne odd,
      Function.update_self]
  · have ne : cellAddr base i' j' ≠ cellAddr base i j := fun e => here (cellAddr_inj hj hj' e)
    have ne' : cellAddr base i' j' + 1 ≠ cellAddr base i j + 1 := fun e => ne (Nat.succ.inj e)
    rw [if_neg here, cellOf, cellOf, setCell, Function.update_of_ne odd, Function.update_of_ne ne,
      Function.update_of_ne ne', Function.update_of_ne odd']

/-- A lifted cell is the one below it. -/
lemma liftCell_eq (base i j : Nat) (m : Mem) : liftCell base i j m =
    setCell base i j (cellOf base m (i + 1) j).1 (cellOf base m (i + 1) j).2 m := by
  have odd := cellAddr_even base i j (i + 1) j
  have ne : cellAddr base (i + 1) j + 1 ≠ cellAddr base i j :=
    (cellAddr_even base (i + 1) j i j).symm
  rw [liftCell, setCell, Function.update_of_ne ne]
  rfl

/-- A loop that sets the cells of row `i`, each to a value that depends on its own column only. -/
lemma cellOf_setRow (v : Mem → Nat → UInt8 × UInt8) (hj : j' < numCols)
    (own : ∀ t, ∀ j < numCols, (∀ i, cellOf base t i j = cellOf base m i j) → v t j = v m j) :
    cellOf base
        ((List.range numCols).foldl (fun m j => setCell base i j (v m j).1 (v m j).2 m) m) i' j'
      = if i' = i then v m j' else cellOf base m i' j' := by
  have loop := foldl_range_set (f := fun m j => setCell base i j (v m j).1 (v m j).2 m) (s := m)
    (n := numCols) (N := numCols) (fun m j i' => cellOf base m i' j)
    (fun j i' => if i' = i then v m j else cellOf base m i' j) ?_ j' hj
  · rw [if_pos hj] at loop
    exact congrFun loop i'
  · intro t j hj same k hk
    have old (i' : Nat) : cellOf base t i' j = cellOf base m i' j :=
      congrFun (same j hj (Nat.le_refl j)) i'
    funext i'
    rw [cellOf_setCell _ _ hj hk, own t j hj old]
    by_cases here : k = j
    · rw [here, if_pos rfl, old]
      by_cases row : i' = i
      · rw [if_pos ⟨row, rfl⟩, if_pos row]
      · rw [if_neg (fun h => row h.1), if_neg row]
    · rw [if_neg (fun h => here h.2), if_neg here]

/-- The loop over one row of the scrolling functions. -/
lemma cellOf_liftRow (base i : Nat) (m : Mem) (hj : j' < numCols) :
    cellOf base ((List.range numCols).foldl (fun m j => liftCell base i j m) m) i' j'
      = if i' = i then cellOf base m (i + 1) j' else cellOf base m i' j' := by
  simp only [liftCell_eq]
  exact cellOf_setRow (fun m j => cellOf base m (i + 1) j) hj fun t j _ same => same (i + 1)

/-- The loop of the scrolling functions lifts every row but the last. -/
lemma cellOf_liftRows (base : Nat) (m : Mem) (hj : j < numCols) :
    cellOf base (liftRows base m) i j
      = if i < numRows - 1 then cellOf base m (i + 1) j else cellOf base m i j := by
  unfold liftRows
  have loop := foldl_range_set
    (f := fun m i => (List.range numCols).foldl (fun m j => liftCell base i j m) m) (s := m)
    (n := numRows - 1) (N := i + numRows) (fun m i => cellOf base m i j)
    (fun i => cellOf base m (i + 1) j) ?_ i (Nat.lt_add_of_pos_right (by decide))
  · exact loop
  · intro t i' hi' same k hk
    rw [cellOf_liftRow base i' t hj, same (i' + 1) (by omega) (Nat.le_succ i')]

/-- The loop that empties a row. -/
lemma cellOf_blankRow (base i : Nat) (m : Mem) (hj : j' < numCols) :
    cellOf base (blankRow base i m) i' j'
      = if i' = i then (32, attrib) else cellOf base m i' j' := by
  unfold blankRow
  exact cellOf_setRow (fun _ _ => (32, attrib)) hj fun _ _ _ _ => rfl

/-- `clean_screen` empties every row. -/
lemma cellOf_blankRows (base : Nat) (m : Mem) (hi : i < numRows) (hj : j < numCols) :
    cellOf base (blankRows base m) i j = (32, attrib) := by
  unfold blankRows
  have loop := foldl_range_set (f := fun m i => blankRow base i m) (s := m) (n := numRows)
    (N := numRows) (fun m i => cellOf base m i j) (fun _ => (32, attrib)) ?_ i hi
  · rw [if_pos hi] at loop
    exact loop
  · intro t i' hi' same k hk
    exact cellOf_blankRow base i' t hj

end Contents

end Kernel391
