import Kernel391.Process.Protection

/-!
# Mapping the display

`vidmap` for every pointer. It stores a word through the pointer first, then refuses a pointer
outside the user page, and otherwise maps the display and stores again. A pointer it refuses changes
nothing only if the word it stores is there already. The stores are followed through the page
tables, which they may hit.
-/

namespace Kernel391
open Base

/-- The word a pointer refers to lies in the user page. -/
def InUserWord (p : Nat) : Prop := userMem ≤ p ∧ p + 4 ≤ userEnd

/-- The address user code finds the display at. -/
def userVideoMem : Nat := 0x08800000

/-- What `vidmap` should do with a pointer: refuse it and change nothing if its word is not in the
user page, and otherwise leave the address of the display there, a page that user code reaches. -/
structure VidmapExact (s : Kernel) (p : Nat) : Prop where
  refused : ¬ InUserWord p → s.vidmap p = some (s, -1)
  mapped : InUserWord p → ∃ s' : Kernel, s.vidmap p = some (s', (videoMem : Int)) ∧
    s'.loadWord p = some userVideoMem ∧
    ∀ k < 4096, s'.paging.userTranslate (userVideoMem + k) = some (videoMem + k)

/-- The bytes from a pointer on are `bs`, in memory and in the page tables where they lie there. -/
def HoldsBytes (s : Kernel) : (va : Nat) → List UInt8 → Prop
  | _, [] => True
  | va, b :: bs =>
    (∃ pa, s.paging.translate va = some pa ∧ s.mem pa = b ∧ s.paging.storeByte pa b = s.paging) ∧
      HoldsBytes s (add32 va 1) bs

/-- The page tables of a process that runs: its page is mapped above the kernel, and the tables have
pages of their own in the kernel's page. -/
structure UserPaging (pg : Paging) : Prop where
  present : pg.DT userPdIndex % 2 = 1
  large : pg.DT userPdIndex / 2 ^ 7 % 2 = 1
  above : 2 ≤ pg.DT userPdIndex / 2 ^ 22
  dt : TableAt pg.dtAddr
  pt : TableAt pg.ptAddr
  ptVidmem : TableAt pg.ptVidmemAddr
  distinct : pg.ptAddr ≠ pg.ptVidmemAddr

section Tables

variable {pg pg' : Paging} {a pa pa' va va' : Nat} {b c : UInt8} {bs : List UInt8}

/-- Bytes stored at two addresses do not interfere in a table. -/
lemma storeEntry_comm (a : Nat) (t : Nat → Nat) (ne : pa ≠ pa') :
    storeEntry a (storeEntry a t pa b) pa' c = storeEntry a (storeEntry a t pa' c) pa b := by
  by_cases first : a ≤ pa ∧ pa < a + 4096
  · by_cases second : a ≤ pa' ∧ pa' < a + 4096
    · simp only [storeEntry, if_pos first, if_pos second]
      by_cases same : (pa - a) / 4 = (pa' - a) / 4
      · have byte : (pa - a) % 4 ≠ (pa' - a) % 4 := by omega
        rw [same, Function.update_self, Function.update_self, Function.update_idem,
          Function.update_idem,
          setByte_comm _ (Nat.mod_lt _ (by decide)) (Nat.mod_lt _ (by decide)) byte]
      · rw [Function.update_of_ne (Ne.symm same), Function.update_of_ne same,
          Function.update_comm same]
    · simp only [storeEntry, if_neg second]
  · simp only [storeEntry, if_neg first]

/-- Storing a byte of an entry twice is storing it once. -/
lemma storeEntry_idem (a : Nat) (t : Nat → Nat) :
    storeEntry a (storeEntry a t pa b) pa b = storeEntry a t pa b := by
  by_cases inside : a ≤ pa ∧ pa < a + 4096
  · simp only [storeEntry, if_pos inside]
    rw [Function.update_self, Function.update_idem, setByte_idem _ (Nat.mod_lt _ (by decide))]
  · simp only [storeEntry, if_neg inside]

/-- Bytes at different addresses can be stored in either order. -/
lemma storeByte_comm (pg : Paging) (ne : pa ≠ pa') :
    (pg.storeByte pa b).storeByte pa' c = (pg.storeByte pa' c).storeByte pa b := by
  simp only [Paging.storeByte, storeEntry_comm _ _ ne]

/-- Storing a byte twice is storing it once. -/
lemma storeByte_idem (pg : Paging) : (pg.storeByte pa b).storeByte pa b = pg.storeByte pa b := by
  simp only [Paging.storeByte, storeEntry_idem]

/-- An address keeps its place in the page. -/
lemma translate_mod (walk : pg.translate va = some pa) : pa % 4096 = va % 4096 := by
  rw [Paging.translate] at walk
  dsimp only at walk
  split_ifs at walk <;> cases walk <;> omega

/-- The bytes from `va` on are in other places of their pages than `pa`. -/
def Clear (pa va n : Nat) : Prop := ∀ k < n, (va + k) % 4096 ≠ pa % 4096

/-- What the other bytes are clear of. -/
lemma Clear.next {n : Nat} (h : Clear pa va (n + 1)) : Clear pa (add32 va 1) n := by
  intro k hk
  have ne := h (k + 1) (by omega)
  rw [add32]
  omega

/-- The first byte is stored elsewhere. -/
lemma Clear.ne {n : Nat} (h : Clear pa va (n + 1)) (walk : pg.translate va = some pa') :
    pa' ≠ pa := by
  rintro rfl
  exact h 0 (by omega) (translate_mod walk).symm

/-- The bytes behind one byte, in less than a page, are clear of it. -/
lemma clear_of_walk {n : Nat} (hn : n < 4096) (walk : pg.translate va = some pa) :
    Clear pa (add32 va 1) n := by
  intro k hk
  rw [translate_mod walk, add32]
  omega

/-- Bytes stored clear of an address leave the byte there. -/
lemma storeThrough_clear {m m' : Mem} (clear : Clear pa va bs.length)
    (run : storeThrough pg m va bs = some m') : m' pa = m pa := by
  induction bs generalizing m va with
  | nil => cases run; rfl
  | cons b bs ih =>
      rw [storeThrough] at run
      cases walk : pg.translate va with
      | none => rw [walk] at run; cases run
      | some pa' =>
          rw [walk] at run
          rw [ih clear.next run]
          exact Function.update_of_ne (Ne.symm (clear.ne walk)) b m

/-- The same in the tables: a byte stored before them might as well be stored after them. -/
lemma storeTables_clear (clear : Clear pa va bs.length) (pg' : Paging) :
    (pg.storeTables pg' va bs).storeByte pa c = pg.storeTables (pg'.storeByte pa c) va bs := by
  induction bs generalizing pg' va with
  | nil => rfl
  | cons b bs ih =>
      rw [Paging.storeTables, Paging.storeTables]
      cases walk : pg.translate va with
      | none => rfl
      | some pa' =>
          dsimp only
          rw [ih clear.next, storeByte_comm _ (clear.ne walk)]

end Tables

section Stores

variable {s s' : Kernel} {pg : Paging} {va pa p w : Nat} {bs : List UInt8}

/-- Storing what is there already changes nothing. -/
lemma HoldsBytes.store (h : HoldsBytes s va bs) :
    storeThrough s.paging s.mem va bs = some s.mem ∧
      s.paging.storeTables s.paging va bs = s.paging := by
  induction bs generalizing va with
  | nil => exact ⟨rfl, rfl⟩
  | cons b bs ih =>
      obtain ⟨⟨pa, walk, byte, tables⟩, rest⟩ := h
      obtain ⟨mem, paging⟩ := ih rest
      rw [storeThrough, Paging.storeTables, walk]
      dsimp only
      rw [tables, ← byte, Function.update_eq_self]
      exact ⟨mem, paging⟩

/-- What less than a page of stores leaves is what they stored. -/
lemma holdsBytes_stored {m : Mem} {pg' : Paging} (hb : bs.length ≤ 4096)
    (mem : storeThrough s.paging m va bs = some s.mem)
    (paging : s.paging.storeTables pg' va bs = s.paging) : HoldsBytes s va bs := by
  induction bs generalizing m pg' va with
  | nil => trivial
  | cons b bs ih =>
      rw [List.length_cons] at hb
      rw [storeThrough] at mem
      rw [Paging.storeTables] at paging
      cases walk : s.paging.translate va with
      | none => rw [walk] at mem; cases mem
      | some pa =>
          rw [walk] at mem paging
          dsimp only at mem paging
          have clear : Clear pa (add32 va 1) bs.length := clear_of_walk (by omega) walk
          refine ⟨⟨pa, walk, ?_, ?_⟩, ih (by omega) mem paging⟩
          · rw [storeThrough_clear clear mem]
            exact Function.update_self pa b m
          · rw [← paging, storeTables_clear clear, storeByte_idem]

/-- A store changes nothing exactly if the word is there already. -/
lemma storePointer_same : s.storePointer p w = some s ↔ HoldsBytes s p (wordBytes w) := by
  constructor
  · intro run
    obtain ⟨m, hm, eq⟩ := Option.map_eq_some_iff.mp run
    have mem : m = s.mem := congrArg Kernel.mem eq
    have paging : s.paging.storeTables s.paging p (wordBytes w) = s.paging :=
      congrArg Kernel.paging eq
    rw [mem] at hm
    exact holdsBytes_stored (show (4 : Nat) ≤ 4096 by decide) hm paging
  · intro holds
    obtain ⟨mem, paging⟩ := holds.store
    rw [Kernel.storePointer, mem, paging]
    rfl

/-! ### Pointers in the user page -/

/-- The physical address of a pointer in the user page. -/
def Paging.inPage (pg : Paging) (va : Nat) : Nat :=
  pg.DT userPdIndex / 2 ^ 22 * 2 ^ 22 + (va - userMem)

/-- Guarded tables are such tables while the page of a process is mapped. -/
lemma Guarded.userPaging {b : BootInfo} (h : Guarded b pg) (placed : TablesPlaced b)
    (mapped : ¬ pg.DT userPdIndex % 2 = 0) : UserPaging pg := by
  rcases h.user with absent | ⟨p, hp, entry⟩
  · exact absurd absent mapped
  obtain ⟨present, large, frame⟩ := userPde_spec (k := 2 + p) (by omega) (by omega)
  refine ⟨entry ▸ present, entry ▸ large, ?_, h.dtAddr ▸ placed.dt, h.ptAddr ▸ placed.pt,
    h.ptVidmemAddr ▸ placed.ptVidmem, ?_⟩
  · rw [entry, frame]
    exact Nat.le_add_right 2 p
  · rw [h.ptAddr, h.ptVidmemAddr]
    exact placed.distinct

/-- An address of the user page is translated into the page's frame. -/
lemma UserPaging.translate (h : UserPaging pg) (low : userMem ≤ va) (high : va < userEnd) :
    pg.translate va = some (pg.inPage va) := by
  have present := h.present
  rw [userMem] at low
  rw [userEnd] at high
  have index : va / 2 ^ 22 = userPdIndex := by
    rw [userPdIndex_eq]
    omega
  have place : pg.inPage va = pg.DT userPdIndex / 2 ^ 22 * 2 ^ 22 + va % 2 ^ 22 := by
    rw [Paging.inPage, userMem]
    omega
  rw [Paging.translate, index, place]
  dsimp only
  rw [if_neg (by omega), if_pos h.large]

/-- The page of a process is behind the tables. -/
lemma UserPaging.storeByte (h : UserPaging pg) (high : 0x800000 ≤ pa) (b : UInt8) :
    pg.storeByte pa b = pg := by
  have outside : ¬ InKernelPage pa := fun inside => absurd inside.2 (Nat.not_lt.mpr high)
  exact storeByte_outside h.dt h.pt h.ptVidmem outside b

/-- A store to the user page changes no page table. -/
lemma UserPaging.storeTables (h : UserPaging pg) (low : userMem ≤ va)
    (high : va + bs.length ≤ userEnd) : pg.storeTables pg va bs = pg := by
  induction bs generalizing va with
  | nil => rfl
  | cons b bs ih =>
      rw [List.length_cons] at high
      have above := h.above
      have top : userEnd < 2 ^ 32 := by decide
      have next : add32 va 1 = va + 1 := Nat.mod_eq_of_lt (by omega)
      have behind : 0x800000 ≤ pg.inPage va := by
        rw [Paging.inPage]
        omega
      rw [Paging.storeTables, h.translate low (by omega)]
      dsimp only
      rw [h.storeByte behind, next, ih (by omega) (by omega)]

/-- A word stored in the user page. -/
lemma UserPaging.storePointer (h : UserPaging s.paging) (inside : InUserWord p) :
    s.storePointer p w = some { s with mem := s.mem.store (s.paging.inPage p) (wordBytes w) } := by
  obtain ⟨low, high⟩ := inside
  have top : userEnd < 2 ^ 32 := by decide
  have four : (wordBytes w).length = 4 := rfl
  have walk : ∀ k < (wordBytes w).length,
      s.paging.translate (p + k) = some (s.paging.inPage p + k) := by
    intro k hk
    have place : s.paging.inPage (p + k) = s.paging.inPage p + k := by
      rw [Paging.inPage, Paging.inPage]
      omega
    rw [h.translate (by omega) (by omega), place]
  rw [Kernel.storePointer, storeThrough_walk walk (by omega), h.storeTables low (by omega)]
  rfl

/-- A word stored in the user page is found there. -/
lemma UserPaging.load_stored (h : UserPaging s.paging) (inside : InUserWord p) {k : Nat}
    (hk : k < 4) :
    ({ s with mem := s.mem.store (s.paging.inPage p) (wordBytes w) } : Kernel).load (p + k)
      = some ((wordBytes w).getD k 0) := by
  obtain ⟨low, high⟩ := inside
  have place : s.paging.inPage (p + k) = s.paging.inPage p + k := by
    rw [Paging.inPage, Paging.inPage]
    omega
  have four : (wordBytes w).length = 4 := rfl
  have byte : s.mem.store (s.paging.inPage p) (wordBytes w) (s.paging.inPage p + k)
      = (wordBytes w).getD k 0 := Mem.store_at (by omega)
  have walk : s.paging.translate (p + k) = some (s.paging.inPage p + k) := by
    rw [h.translate (by omega) (by omega), place]
  rw [Kernel.load]
  dsimp only
  rw [walk, Option.map_some, byte]

/-- It is there afterwards. -/
lemma UserPaging.loadWord_stored (h : UserPaging s.paging) (inside : InUserWord p) :
    ({ s with mem := s.mem.store (s.paging.inPage p) (wordBytes w) } : Kernel).loadWord p
      = some ((UInt8.ofNat w).toNat + 2 ^ 8 * (UInt8.ofNat (w / 2 ^ 8)).toNat
        + 2 ^ 16 * (UInt8.ofNat (w / 2 ^ 16)).toNat
        + 2 ^ 24 * (UInt8.ofNat (w / 2 ^ 24)).toNat) := by
  have first := h.load_stored (w := w) inside (k := 0) (by decide)
  rw [Nat.add_zero] at first
  rw [Kernel.loadWord, first, h.load_stored inside (by decide), h.load_stored inside (by decide),
    h.load_stored inside (by decide)]
  rfl

/-- The tables after the display was mapped. -/
def Paging.mapVideo (pg : Paging) : Paging :=
  { pg with
    DT := Function.update pg.DT 34 (pg.ptVidmemAddr ||| 1 ||| 2 ||| 4)
    PTVidmem := Function.update pg.PTVidmem 0 (1 ||| 2 ||| 4 ||| videoMem) }

/-- Mapping the display keeps the tables of a process. -/
lemma UserPaging.mapVideo (h : UserPaging pg) : UserPaging pg.mapVideo := by
  have same : pg.mapVideo.DT userPdIndex = pg.DT userPdIndex := by
    have ne : userPdIndex ≠ 34 := by decide
    exact Function.update_of_ne ne (pg.ptVidmemAddr ||| 1 ||| 2 ||| 4) pg.DT
  constructor
  · rw [same]
    exact h.present
  · rw [same]
    exact h.large
  · rw [same]
    exact h.above
  · exact h.dt
  · exact h.pt
  · exact h.ptVidmem
  · exact h.distinct

/-- User code then finds the display at its address. -/
lemma UserPaging.video (h : UserPaging pg) {k : Nat} (hk : k < 4096) :
    pg.mapVideo.userTranslate (userVideoMem + k) = some (videoMem + k) := by
  have directory : (userVideoMem + k) / 2 ^ 22 = 34 := by
    rw [userVideoMem]
    omega
  have page : (userVideoMem + k) / 2 ^ 12 % 1024 = 0 := by
    rw [userVideoMem]
    omega
  have place : (userVideoMem + k) % 2 ^ 12 = k := by
    rw [userVideoMem]
    omega
  have entry : pg.mapVideo.DT 34 = pg.ptVidmemAddr + 7 := by
    show Function.update pg.DT 34 (pg.ptVidmemAddr ||| 1 ||| 2 ||| 4) 34 = pg.ptVidmemAddr + 7
    rw [Function.update_self, Nat.or_assoc, Nat.or_assoc, Nat.or_comm]
    exact or_aligned h.ptVidmem.aligned (by decide)
  have frame : pg.mapVideo.PTVidmem 0 = 0xB8007 := by
    exact Function.update_self 0 (1 ||| 2 ||| 4 ||| videoMem) pg.PTVidmem
  obtain ⟨present, shared, small, table⟩ := tableAt_flags h.ptVidmem
  have other : ¬ pg.ptVidmemAddr = pg.ptAddr := Ne.symm h.distinct
  have pt : pg.mapVideo.ptAddr = pg.ptAddr := rfl
  have ptVidmem : pg.mapVideo.ptVidmemAddr = pg.ptVidmemAddr := rfl
  rw [Paging.userTranslate, directory, page, place, entry, table, pt, ptVidmem, frame]
  dsimp only
  rw [if_neg (not_or.mpr ⟨present, shared⟩), if_neg small, if_neg other, if_pos rfl]
  rfl

/-- For a word in the user page both stores are made, and the display is mapped between them. -/
lemma vidmap_mapped (h : UserPaging s.paging) (inside : InUserWord p) :
    ∃ s' : Kernel, s.vidmap p = some (s', (videoMem : Int)) ∧ s'.loadWord p = some userVideoMem ∧
      ∀ k < 4096, s'.paging.userTranslate (userVideoMem + k) = some (videoMem + k) := by
  have low := inside.1
  have high := inside.2
  have bottom : 0 < userMem := by decide
  have top : userEnd = userEnd - 4 + 4 := by decide
  let m := s.mem.store (s.paging.inPage p) (wordBytes (userEnd - 4))
  let s₁ : Kernel := { s with mem := m, paging := s.paging.mapVideo }
  have first : s.storePointer p (userEnd - 4) = some { s with mem := m } := h.storePointer inside
  have paging : UserPaging s₁.paging := h.mapVideo
  have second := paging.storePointer (w := userVideoMem) inside
  have run : s.vidmap p = (s₁.storePointer p userVideoMem).map fun s' =>
    (s', (videoMem : Int)) := by
    rw [Kernel.vidmap, if_neg (by omega), first]
    dsimp only
    rw [if_neg (by omega)]
    rfl
  rw [run, second]
  refine ⟨_, rfl, ?_, fun k hk => h.video hk⟩
  rw [paging.loadWord_stored inside]
  decide

/-- A refused pointer changes nothing exactly if the word is there already. -/
lemma vidmap_refused (outside : ¬ InUserWord p) (ne : p ≠ 0) :
    s.vidmap p = some (s, -1) ↔ HoldsBytes s p (wordBytes (userEnd - 4)) := by
  rw [← storePointer_same, Kernel.vidmap, if_neg ne]
  have refuse : p < userMem ∨ p > userEnd - 4 := by
    have top : userEnd = userEnd - 4 + 4 := by decide
    rw [InUserWord] at outside
    omega
  cases first : s.storePointer p (userEnd - 4) with
  | none =>
      constructor
      · intro run
        cases run
      · intro stored
        cases stored
  | some s₁ =>
      dsimp only
      rw [if_pos refuse]
      constructor
      · intro eq
        exact congrArg some (congrArg Prod.fst (Option.some.inj eq))
      · intro eq
        rw [Option.some.inj eq]

end Stores

/-- **`vidmap` and its pointer.** It does what it should for a word in the user page and for `NULL`;
any other pointer it refuses after it stored through it, so that nothing changes only if the word is
there already. -/
theorem vidmap_exact_iff (s : Kernel) (screenStart : BitVec 32)
    (paging : InUserWord screenStart.toNat → UserPaging s.paging) :
    VidmapExact s screenStart.toNat ↔
      InUserWord screenStart.toNat ∨ screenStart = 0 ∨
        HoldsBytes s screenStart.toNat (wordBytes (userEnd - 4)) := by
  by_cases inside : InUserWord screenStart.toNat
  · refine ⟨fun _ => .inl inside, fun _ => ⟨fun outside => absurd inside outside, fun _ => ?_⟩⟩
    exact vidmap_mapped (paging inside) inside
  · rw [or_iff_right inside]
    by_cases null : screenStart = 0
    · subst null
      exact ⟨fun _ => .inl rfl, fun _ => ⟨fun _ => rfl, fun inside' => absurd inside' inside⟩⟩
    · have ne : screenStart.toNat ≠ 0 := fun eq => null (BitVec.eq_of_toNat_eq eq)
      rw [or_iff_right null, ← vidmap_refused inside ne]
      exact ⟨fun exact => exact.refused inside,
        fun run => ⟨fun _ => run, fun inside' => absurd inside' inside⟩⟩

/-- The small image's kernel with the page of its first process mapped. -/
def sampleUser : Kernel :=
  { Kernel.boot sampleBoot with paging := (Kernel.boot sampleBoot).paging.mapUserPage 2 }

/-- The page tables of the small image's first process. -/
lemma userPaging_sample : UserPaging sampleUser.paging := by
  have guarded := (guarded_boot tablesPlaced_sample).mapUserPage (p := 0) (by decide)
  apply guarded.userPaging tablesPlaced_sample
  decide +kernel

/-- The last word of the user page gets the display, and a null pointer is refused. -/
theorem vidmap_exact_iff_sample : VidmapExact sampleUser (0x083FFFFC : BitVec 32).toNat ∧
    VidmapExact sampleUser (0 : BitVec 32).toNat :=
  ⟨(vidmap_exact_iff sampleUser 0x083FFFFC fun _ => userPaging_sample).mpr
      (Or.inl ⟨by decide, by decide⟩),
    (vidmap_exact_iff sampleUser 0 fun _ => userPaging_sample).mpr (Or.inr (Or.inl rfl))⟩

/-- The first address of the kernel's page is refused, with `USER_END - 4` stored there. -/
theorem not_always_vidmap_exact : ¬ ∀ (s : Kernel) (screenStart : BitVec 32),
    (InUserWord screenStart.toNat → UserPaging s.paging) → VidmapExact s screenStart.toNat := by
  intro claim
  have outside : ¬ InUserWord (0x400000 : BitVec 32).toNat := by
    rw [InUserWord]
    decide
  have run := (claim sampleUser 0x400000 fun inside => absurd inside outside).refused outside
  have stored : (sampleUser.vidmap (0x400000 : BitVec 32).toNat).map
      (fun r => (r.1.mem 0x400000, r.2)) = some (0xFC, -1) := by decide +kernel
  rw [run] at stored
  exact absurd stored (by decide +kernel)

end Kernel391
