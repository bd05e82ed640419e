import Kernel391.Process.Schedule
import Kernel391.Process.UserPages

/-!
# Page protection

User code reaches a page when the entries of both levels are present and marked for users. Every
entry the kernel makes for users is the page of a process, the page of the display, or the directory
entry of the first 4 MB, whose table has no such entry. `vidmap` stores through its argument before
it checks it, with the rights of the kernel, so a pointer into the page tables makes entries of the
caller's choice.
-/

namespace Kernel391
open Base

/-- The physical address user code reaches through a linear address: at every level the entry has to
be present and marked for users. -/
def Paging.userTranslate (pg : Paging) (va : Nat) : Option Nat :=
  let pde := pg.DT (va / 2 ^ 22)
  if pde % 2 = 0 ∨ pde / 2 ^ 2 % 2 = 0 then none
  else if pde / 2 ^ 7 % 2 = 1 then some (pde / 2 ^ 22 * 2 ^ 22 + va % 2 ^ 22)
  else
    let table := pde / 2 ^ 12 * 2 ^ 12
    let pte :=
      if table = pg.ptAddr then pg.PT (va / 2 ^ 12 % 1024)
      else if table = pg.ptVidmemAddr then pg.PTVidmem (va / 2 ^ 12 % 1024)
      else 0
    if pte % 2 = 0 ∨ pte / 2 ^ 2 % 2 = 0 then none else some (pte / 2 ^ 12 * 2 ^ 12 + va % 2 ^ 12)

/-- An address of the kernel's page, from 4 to 8 MB. -/
def InKernelPage (a : Nat) : Prop := 0x400000 ≤ a ∧ a < 0x800000

/-- User code can access a physical address. -/
def Paging.UserAccess (pg : Paging) (pa : Nat) : Prop :=
  ∃ va < 2 ^ 32, pg.userTranslate va = some pa

/-- User code can access the page of one process and the page of the display, and neither the
kernel's page nor the buffer of a terminal. -/
structure Protected (pg : Paging) : Prop where
  confined : ∃ p < 6, ∀ pa, pg.UserAccess pa →
    (0x800000 + 0x400000 * p ≤ pa ∧ pa < 0xC00000 + 0x400000 * p) ∨ (0xB8000 ≤ pa ∧ pa ≤ 0xB8FFF)
  kernel : ∀ pa, pg.UserAccess pa → ¬ InKernelPage pa
  buffers : ∀ pa, pg.UserAccess pa → ∀ t < 3, ¬ (videoBuffer t ≤ pa ∧ pa < videoBuffer t + fourKb)

/-- A call that changes what is mapped. -/
inductive PageCall where
  | execute (fr : Frame) (command : Option (List UInt8))
  | halt (fr : Frame) (status : UInt8)
  | terminalSwitch (fr : Frame) (t : Fin 3)
  | vidmap (screenStart : BitVec 32)

/-- A call that completes; a switch that has to start a shell and cannot is no step. -/
def PageCall.step (s : Kernel) : PageCall → Option Kernel
  | .execute fr command => Call.step s (.execute fr command)
  | .halt fr status => Call.step s (.halt fr status)
  | .terminalSwitch fr t => Call.step s (.terminalSwitch fr t)
  | .vidmap screenStart => (s.vidmap screenStart.toNat).map Prod.fst

/-- The call is a `vidmap` whose word overlaps the kernel's page. -/
def StoresToKernel (c : PageCall) : Prop :=
  ∃ screenStart, c = .vidmap screenStart ∧ 0x400000 ≤ screenStart.toNat + 3 ∧
    screenStart.toNat < 0x800000

/-- A table of the kernel: a page of its own in the kernel's page. -/
structure TableAt (a : Nat) : Prop where
  aligned : a % 4096 = 0
  low : 0x400000 ≤ a
  high : a + 4096 ≤ 0x800000

/-- The linker placed the three tables in the kernel's page. -/
structure TablesPlaced (b : BootInfo) : Prop where
  dt : TableAt b.dtAddr
  pt : TableAt b.ptAddr
  ptVidmem : TableAt b.ptVidmemAddr
  distinct : b.ptAddr ≠ b.ptVidmemAddr

/-! ## Entries -/

section Entries

variable {a i k w : Nat}

/-- A field of two masks. -/
lemma or_div (a b k : Nat) : (a ||| b) / 2 ^ k = a / 2 ^ k ||| b / 2 ^ k := by
  rw [← Nat.shiftRight_eq_div_pow, ← Nat.shiftRight_eq_div_pow, ← Nat.shiftRight_eq_div_pow,
    Nat.shiftRight_or_distrib]

/-- The fields of an address in an entry. -/
lemma shiftLeft_div (i : Nat) : (i <<< 12) / 2 ^ 2 = 1024 * i ∧ (i <<< 12) / 2 ^ 12 = i := by
  rw [Nat.shiftLeft_eq]
  omega

/-- Flags below bit 3 and the address of a table. -/
lemma or_aligned (h : a % 4096 = 0) (hw : w < 4096) : w ||| a = a + w := by
  have split : a = 4096 * (a / 4096) := by omega
  rw [Nat.or_comm, split]
  exact (Nat.two_pow_add_eq_or_of_lt (i := 12) hw (a / 4096)).symm

/-- The entry of a directory or a table: page `i`, and not for users. -/
structure KernelEntry (i e : Nat) : Prop where
  frame : e / 2 ^ 12 = i
  supervisor : e / 2 ^ 2 % 2 = 0

/-- The entry of a page that is only writable. -/
lemma kernelEntry_rw (i : Nat) : KernelEntry i (2 ||| (i <<< 12)) := by
  obtain ⟨second, twelfth⟩ := shiftLeft_div i
  constructor
  · rw [or_div, twelfth]
    exact Nat.zero_or i
  · rw [or_div, second]
    show (0 ||| 1024 * i) % 2 = 0
    rw [Nat.zero_or]
    omega

/-- The entry of the page of the display. -/
lemma kernelEntry_video : KernelEntry 0xB8 (1 ||| 2 ||| 0x100 ||| (0xB8 <<< 12)) := by
  constructor
  · decide
  · decide

/-- The entry may be present. -/
lemma KernelEntry.present {e : Nat} (h : KernelEntry i e) : KernelEntry i (e ||| 1) := by
  constructor
  · rw [or_div, h.frame]
    exact Nat.or_zero i
  · rw [or_div]
    show (e / 2 ^ 2 ||| 0) % 2 = 0
    rw [Nat.or_zero]
    exact h.supervisor

end Entries

/-! ## The tables -/

/-- What the tables keep while nothing else is stored in them: the directory maps the first 4 MB
through the first table, the kernel's page for itself, at most the page of one process and at most
the table of `vidmap`, which has at most the page of the display. -/
structure Guarded (b : BootInfo) (pg : Paging) : Prop where
  dtAddr : pg.dtAddr = b.dtAddr
  ptAddr : pg.ptAddr = b.ptAddr
  ptVidmemAddr : pg.ptVidmemAddr = b.ptVidmemAddr
  low : pg.DT 0 = b.ptAddr + 7
  kernel : pg.DT 1 / 2 ^ 2 % 2 = 0
  user : pg.DT userPdIndex % 2 = 0 ∨ ∃ p < 6, pg.DT userPdIndex = userPde (2 + p)
  video : pg.DT 34 % 2 = 0 ∨ pg.DT 34 = b.ptVidmemAddr + 7
  absent : ∀ i, i ≠ 0 → i ≠ 1 → i ≠ userPdIndex → i ≠ 34 → pg.DT i % 2 = 0
  PT : ∀ i, KernelEntry i (pg.PT i)
  PTVidmem : pg.PTVidmem 0 = 0 ∨ pg.PTVidmem 0 = 0xB8007
  rest : ∀ i, i ≠ 0 → pg.PTVidmem i = 0

section Tables

variable {b : BootInfo} {pg pg' : Paging} {va pa : Nat} {bs : List UInt8}

/-- `terminal_init` adds the buffers of the terminals to the table of `paging_init`. -/
lemma kernelEntry_boot (b : BootInfo) (i : Nat) : KernelEntry i ((Kernel.boot b).paging.PT i) := by
  have first (i : Nat) : KernelEntry i ((pagingInit b.dtAddr b.ptAddr b.ptVidmemAddr).PT i) := by
    rw [pagingInit]
    dsimp only
    split_ifs with video
    · exact kernelEntry_rw i
    · have index : i = 0xB8 := by
        rw [not_not, Nat.shiftLeft_eq, videoMem] at video
        omega
      rw [index]
      exact kernelEntry_video
  have marked (pt : Nat → Nat) (j : Nat) (all : ∀ i, KernelEntry i (pt i)) (i : Nat) :
      KernelEntry i (Function.update pt j (pt j ||| 1) i) := by
    by_cases e : i = j
    · subst e
      rw [Function.update_self]
      exact (all i).present
    · rw [Function.update_of_ne e]
      exact all i
  exact marked _ _ (marked _ _ (marked _ _ first)) i

/-- The page tables are guarded at boot. -/
lemma guarded_boot (placed : TablesPlaced b) : Guarded b (Kernel.boot b).paging := by
  obtain ⟨aligned, -, -⟩ := placed.pt
  refine ⟨rfl, rfl, rfl, ?_, ?_, .inl (boot_unmapped b (by decide) (by decide)),
    .inl (boot_unmapped b (by decide) (by decide)), fun i h0 h1 _ _ => boot_unmapped b h0 h1,
    kernelEntry_boot b, .inl rfl, fun i _ => rfl⟩
  · show 1 ||| 2 ||| 4 ||| (b.ptAddr >>> 12 <<< 12) = b.ptAddr + 7
    have whole : b.ptAddr >>> 12 <<< 12 = b.ptAddr := by
      rw [Nat.shiftRight_eq_div_pow, Nat.shiftLeft_eq]
      omega
    rw [whole]
    exact or_aligned aligned (by decide)
  · show (1 ||| 2 ||| 0x80 ||| 0x100 ||| (1 <<< 22)) / 2 ^ 2 % 2 = 0
    decide

/-- Mapping the page of a process keeps the tables guarded. -/
lemma Guarded.mapUserPage (h : Guarded b pg) {p : Nat} (hp : p < 6) :
    Guarded b (pg.mapUserPage (2 + p)) := by
  have other (i : Nat) (ne : i ≠ userPdIndex) : (pg.mapUserPage (2 + p)).DT i = pg.DT i := by
    rw [Paging.mapUserPage]
    exact Function.update_of_ne ne (userPde (2 + p)) pg.DT
  refine ⟨h.dtAddr, h.ptAddr, h.ptVidmemAddr, ?_, ?_, .inr ⟨p, hp, Paging.mapUserPage_DT ..⟩, ?_,
    fun i h0 h1 hu hv => ?_, h.PT, h.PTVidmem, h.rest⟩
  · rw [other 0 (by decide)]
    exact h.low
  · rw [other 1 (by decide)]
    exact h.kernel
  · rw [other 34 (by decide)]
    exact h.video
  · rw [other i hu]
    exact h.absent i h0 h1 hu hv

/-- The flags of a directory entry that points to a table. -/
lemma tableAt_flags {a : Nat} (h : TableAt a) :
    ¬ (a + 7) % 2 = 0 ∧ ¬ (a + 7) / 2 ^ 2 % 2 = 0 ∧ ¬ (a + 7) / 2 ^ 7 % 2 = 1 ∧
      (a + 7) / 2 ^ 12 * 2 ^ 12 = a := by
  obtain ⟨aligned, -, -⟩ := h
  omega

/-- The only page in the table of `vidmap` is the display. -/
lemma Guarded.video_page (h : Guarded b pg) {i : Nat} (present : ¬ pg.PTVidmem i % 2 = 0) :
    pg.PTVidmem i = 0xB8007 := by
  by_cases first : i = 0
  · subst first
    rcases h.PTVidmem with none | page
    · rw [none] at present
      exact absurd rfl present
    · exact page
  · rw [h.rest i first] at present
    exact absurd rfl present

/-- A directory entry is absent, or one of the four the kernel makes. -/
lemma Guarded.entry (h : Guarded b pg) (i : Nat) : pg.DT i % 2 = 0 ∨
    (i = 0 ∧ pg.DT i = pg.ptAddr + 7) ∨ (i = 1 ∧ pg.DT i / 2 ^ 2 % 2 = 0) ∨
    (i = userPdIndex ∧ ∃ p < 6, pg.DT i = userPde (2 + p)) ∨
    (i = 34 ∧ pg.DT i = pg.ptVidmemAddr + 7) := by
  by_cases low : i = 0
  · exact .inr (.inl ⟨low, by rw [low, h.low, h.ptAddr]⟩)
  by_cases kernel : i = 1
  · exact .inr (.inr (.inl ⟨kernel, kernel ▸ h.kernel⟩))
  by_cases user : i = userPdIndex
  · subst user
    exact h.user.imp_right fun mapped => .inr (.inr (.inl ⟨rfl, mapped⟩))
  by_cases video : i = 34
  · subst video
    refine h.video.imp_right fun mapped => .inr (.inr (.inr ⟨rfl, ?_⟩))
    rw [mapped, h.ptVidmemAddr]
  · exact .inl (h.absent i low kernel user video)

/-- The two tables of small pages are at different addresses. -/
lemma Guarded.distinct (h : Guarded b pg) (placed : TablesPlaced b) :
    ¬ pg.ptVidmemAddr = pg.ptAddr := by
  rw [h.ptAddr, h.ptVidmemAddr]
  exact Ne.symm placed.distinct

/-- Outside its own page the kernel reaches no address of that page. -/
lemma Guarded.translate (h : Guarded b pg) (placed : TablesPlaced b) (outside : ¬ InKernelPage va)
    (walk : pg.translate va = some pa) : ¬ InKernelPage pa := by
  rw [InKernelPage] at outside ⊢
  rw [Paging.translate] at walk
  dsimp only at walk
  rcases h.entry (va / 2 ^ 22) with
    absent | ⟨low, entry⟩ | ⟨kernel, -⟩ | ⟨-, p, hp, entry⟩ | ⟨-, entry⟩
  · rw [if_pos absent] at walk
    cases walk
  · obtain ⟨present, -, small, table⟩ := tableAt_flags (h.ptAddr.symm ▸ placed.pt)
    rw [entry, table, if_neg present, if_neg small, if_pos rfl] at walk
    split_ifs at walk
    cases walk
    have frame := (h.PT (va / 2 ^ 12 % 1024)).frame
    omega
  · omega
  · obtain ⟨present, big, frame⟩ := userPde_spec (k := 2 + p) (by omega) (by omega)
    rw [entry, if_neg (by omega), if_pos big, frame] at walk
    cases walk
    omega
  · obtain ⟨present, -, small, table⟩ := tableAt_flags (h.ptVidmemAddr.symm ▸ placed.ptVidmem)
    rw [entry, table, if_neg present, if_neg small, if_neg (h.distinct placed), if_pos rfl] at walk
    split_ifs at walk with page
    cases walk
    rw [h.video_page page]
    omega

/-- What user code reaches is the page of a process or the display. -/
lemma Guarded.userTranslate (h : Guarded b pg) (placed : TablesPlaced b)
    (walk : pg.userTranslate va = some pa) :
    (va / 2 ^ 22 = userPdIndex ∧ ¬ pg.DT userPdIndex % 2 = 0 ∧
      pa = pg.DT userPdIndex / 2 ^ 22 * 2 ^ 22 + va % 2 ^ 22) ∨ pa = 0xB8000 + va % 2 ^ 12 := by
  rw [Paging.userTranslate] at walk
  dsimp only at walk
  rcases h.entry (va / 2 ^ 22) with
    absent | ⟨-, entry⟩ | ⟨-, supervisor⟩ | ⟨user, p, hp, entry⟩ | ⟨-, entry⟩
  · rw [if_pos (.inl absent)] at walk
    cases walk
  · -- the first 4 MB are marked for users, but none of their pages is
    obtain ⟨present, shared, small, table⟩ := tableAt_flags (h.ptAddr.symm ▸ placed.pt)
    have supervisor := (h.PT (va / 2 ^ 12 % 1024)).supervisor
    rw [entry, table, if_neg (not_or.mpr ⟨present, shared⟩), if_neg small, if_pos rfl,
      if_pos (.inr supervisor)] at walk
    cases walk
  · rw [if_pos (.inr supervisor)] at walk
    cases walk
  · obtain ⟨present, big, -⟩ := userPde_spec (k := 2 + p) (by omega) (by omega)
    rw [← entry] at present big
    rw [if_pos big] at walk
    split_ifs at walk
    cases walk
    rw [user] at present ⊢
    exact .inl ⟨rfl, by omega, rfl⟩
  · obtain ⟨present, shared, small, table⟩ := tableAt_flags (h.ptVidmemAddr.symm ▸ placed.ptVidmem)
    rw [entry, table, if_neg (not_or.mpr ⟨present, shared⟩), if_neg small,
      if_neg (h.distinct placed), if_pos rfl] at walk
    split_ifs at walk with page
    rw [h.video_page (not_or.mp page).1] at walk
    have reached := Option.some.inj walk
    exact .inr (by omega)

/-- Guarded tables protect. -/
lemma Guarded.protected (h : Guarded b pg) (placed : TablesPlaced b) : Protected pg := by
  have confined : ∃ p < 6, ∀ pa, pg.UserAccess pa →
      (0x800000 + 0x400000 * p ≤ pa ∧ pa < 0xC00000 + 0x400000 * p) ∨
        (0xB8000 ≤ pa ∧ pa ≤ 0xB8FFF) := by
    rcases h.user with absent | ⟨p, hp, mapped⟩
    · refine ⟨0, by decide, ?_⟩
      rintro pa ⟨va, -, walk⟩
      rcases h.userTranslate placed walk with ⟨-, present, -⟩ | video
      · exact absurd absent present
      · exact .inr (by omega)
    · refine ⟨p, hp, ?_⟩
      rintro pa ⟨va, -, walk⟩
      rcases h.userTranslate placed walk with ⟨-, -, page⟩ | video
      · obtain ⟨-, -, frame⟩ := userPde_spec (k := 2 + p) (by omega) (by omega)
        rw [mapped, frame] at page
        exact .inl (by omega)
      · exact .inr (by omega)
  obtain ⟨p, hp, all⟩ := confined
  refine ⟨⟨p, hp, all⟩, fun pa access => ?_, fun pa access t ht => ?_⟩
  · rw [InKernelPage]
    have := all pa access
    omega
  · have := all pa access
    rw [videoBuffer, fourKb]
    omega

/-! ### Stores -/

/-- A byte outside the kernel's page is in none of the tables. -/
lemma storeByte_outside (dt : TableAt pg.dtAddr) (pt : TableAt pg.ptAddr)
    (ptVidmem : TableAt pg.ptVidmemAddr) (outside : ¬ InKernelPage pa) (v : UInt8) :
    pg.storeByte pa v = pg := by
  have apart {a : Nat} (table : TableAt a) (entries : Nat → Nat) :
      storeEntry a entries pa v = entries := by
    obtain ⟨-, low, high⟩ := table
    rw [InKernelPage] at outside
    rw [storeEntry, if_neg (by omega)]
  rw [Paging.storeByte, apart dt, apart pt, apart ptVidmem]

/-- The tables are where the linker placed them. -/
lemma Guarded.storeByte (h : Guarded b pg) (placed : TablesPlaced b) (outside : ¬ InKernelPage pa)
    (v : UInt8) : pg.storeByte pa v = pg :=
  storeByte_outside (h.dtAddr.symm ▸ placed.dt) (h.ptAddr.symm ▸ placed.pt)
    (h.ptVidmemAddr.symm ▸ placed.ptVidmem) outside v

/-- Bytes stored outside the kernel's page are not in the tables. -/
lemma Guarded.storeTables (h : Guarded b pg) (placed : TablesPlaced b) (outside : ∀ k < bs.length,
    ¬ InKernelPage ((va + k) % 2 ^ 32)) (hva : va < 2 ^ 32) : pg.storeTables pg va bs = pg := by
  induction bs generalizing va with
  | nil => rfl
  | cons v bs ih =>
      rw [Paging.storeTables]
      cases walk : pg.translate va with
      | none => rfl
      | some pa =>
          have here := outside 0 (Nat.succ_pos _)
          rw [Nat.add_zero, Nat.mod_eq_of_lt hva] at here
          dsimp only
          rw [h.storeByte placed (h.translate placed here walk)]
          apply ih
          · intro k hk
            have next := outside (k + 1) (Nat.succ_lt_succ hk)
            rw [add32, Nat.mod_add_mod, Nat.add_assoc, Nat.add_comm 1 k]
            exact next
          · exact Nat.mod_lt _ (by decide)

/-- A store outside the kernel's page leaves the page tables. -/
lemma Guarded.storePointer {s s' : Kernel} {w : Nat} (h : Guarded b s.paging)
    (placed : TablesPlaced b) (outside : ¬ (0x400000 ≤ va + 3 ∧ va < 0x800000)) (hva : va < 2 ^ 32)
    (run : s.storePointer va w = some s') : s'.paging = s.paging := by
  obtain ⟨m, -, rfl⟩ := Option.map_eq_some_iff.mp run
  apply h.storeTables placed _ hva
  intro k hk
  have four : (wordBytes w).length = 4 := rfl
  rw [InKernelPage]
  omega

/-- The mapping `vidmap` makes. -/
lemma Guarded.mapVideo (h : Guarded b pg) (placed : TablesPlaced b) : Guarded b { pg with
    DT := Function.update pg.DT 34 (pg.ptVidmemAddr ||| 1 ||| 2 ||| 4)
    PTVidmem := Function.update pg.PTVidmem 0 (1 ||| 2 ||| 4 ||| videoMem) } := by
  let table := pg.ptVidmemAddr ||| 1 ||| 2 ||| 4
  let page := 1 ||| 2 ||| 4 ||| videoMem
  have other (i : Nat) (ne : i ≠ 34) : Function.update pg.DT 34 table i = pg.DT i :=
    Function.update_of_ne ne table pg.DT
  refine ⟨h.dtAddr, h.ptAddr, h.ptVidmemAddr, ?_, ?_, ?_, .inr ?_, fun i h0 h1 hu hv => ?_, h.PT,
    .inr ?_, fun i ne => ?_⟩
  · exact (other 0 (by decide)).trans h.low
  · show Function.update pg.DT 34 table 1 / 2 ^ 2 % 2 = 0
    rw [other 1 (by decide)]
    exact h.kernel
  · show Function.update pg.DT 34 table userPdIndex % 2 = 0 ∨
      ∃ p < 6, Function.update pg.DT 34 table userPdIndex = userPde (2 + p)
    rw [other userPdIndex (by decide)]
    exact h.user
  · show Function.update pg.DT 34 table 34 = _
    rw [Function.update_self]
    show pg.ptVidmemAddr ||| 1 ||| 2 ||| 4 = _
    rw [h.ptVidmemAddr, Nat.or_assoc, Nat.or_assoc, Nat.or_comm]
    exact or_aligned placed.ptVidmem.aligned (by decide)
  · show Function.update pg.DT 34 table i % 2 = 0
    rw [other i hv]
    exact h.absent i h0 h1 hu hv
  · exact Function.update_self 0 page pg.PTVidmem
  · exact (Function.update_of_ne ne page pg.PTVidmem).trans (h.rest i ne)

/-- `vidmap` of a word outside the kernel's page keeps the tables guarded. -/
lemma Guarded.vidmap {s s' : Kernel} {r : Int} (h : Guarded b s.paging) (placed : TablesPlaced b)
    (outside : ¬ (0x400000 ≤ va + 3 ∧ va < 0x800000)) (hva : va < 2 ^ 32)
    (run : s.vidmap va = some (s', r)) : Guarded b s'.paging := by
  rw [Kernel.vidmap] at run
  split at run
  · cases run
    exact h
  split at run
  · cases run
  next t first =>
  have same := h.storePointer placed outside hva first
  split at run
  · cases run
    rw [same]
    exact h
  · obtain ⟨t', second, e⟩ := Option.map_eq_some_iff.mp run
    cases e
    have kept : Guarded b t.paging := same ▸ h
    have guarded := kept.mapVideo placed
    rw [guarded.storePointer placed outside hva second]
    exact guarded

end Tables

/-! ## Processes -/

/-- The processes in `G` have a control block with a parent in `G` or none, and the kernel and its
terminals know of no others. So a process that ends returns to one of them. -/
structure ProcView.Parented (v : ProcView) (G : Int → Prop) : Prop where
  range : ∀ p, G p → 0 ≤ p ∧ p < 6
  parent : ∀ p, G p → (v.proc.pcb (pcbAddr p)).parentPid = -1 ∨ G (v.proc.pcb (pcbAddr p)).parentPid
  curPid : v.proc.curPid = -1 ∨ G v.proc.curPid
  ptr : KernelPtr v.proc.curProcessPtr → ∃ p, G p ∧ v.proc.curProcessPtr = pcbAddr p
  processOf : ∀ t, v.processOf t = -1 ∨ G (v.processOf t)

section Processes

variable {v v' : ProcView} {G : Int → Prop} {pid : Int}

/-- There is no control block for the process -1. -/
lemma not_kernelPtr_none : ¬ KernelPtr (pcbAddr (-1)) := by decide

/-- A process that starts has a parent in the kernel's page. -/
lemma ProcView.Parented.started (h : v.Parented G) (st : Started v pid v') :
    v'.Parented fun p => G p ∨ p = pid := by
  have weaken {p : Int} (hp : p = -1 ∨ G p) : p = -1 ∨ G p ∨ p = pid := hp.imp_right .inl
  refine ⟨fun p hp => ?_, fun p hp => ?_, .inr (.inr st.curPid), fun _ => ?_, fun t => ?_⟩
  · rcases hp with hp | rfl
    · exact h.range p hp
    · exact ⟨st.nonneg, st.below⟩
  · by_cases new : p = pid
    · subst new
      rw [st.parentPid]
      split_ifs
      · exact .inl rfl
      · exact weaken h.curPid
    · have same := st.others (pcbAddr p) (fun e => new (pcbAddr_inj.mp e))
      rw [PCB.SameButStack] at same
      rw [same]
      exact weaken (h.parent p (hp.resolve_right new))
  · exact ⟨pid, .inr rfl, st.curProcessPtr⟩
  · rw [st.processOf]
    by_cases here : t = v.currentTerminalId
    · subst here
      rw [Function.update_self]
      exact .inr (.inr rfl)
    · rw [Function.update_of_ne here]
      exact weaken (h.processOf t)

/-- A vacated slot leaves the parents. -/
lemma ProcView.Parented.vacate (h : v.Parented G) : v.vacate.Parented G :=
  ⟨h.range, h.parent, .inl rfl, h.ptr, h.processOf⟩

/-- A switch to another terminal leaves the parents. -/
lemma ProcView.Parented.change (h : v.Parented G) (t : Nat) : (v.change t).Parented G := by
  refine ⟨h.range, h.parent, h.processOf t, fun valid => ?_, fun u => ?_⟩
  · rcases h.processOf t with none | some_process
    · have ptr : (v.change t).proc.curProcessPtr = pcbAddr (v.processOf t) := rfl
      rw [ptr, none] at valid
      exact absurd valid not_kernelPtr_none
    · exact ⟨v.processOf t, some_process, rfl⟩
  · show Function.update v.processOf v.currentTerminalId v.proc.curPid u = -1 ∨
      G (Function.update v.processOf v.currentTerminalId v.proc.curPid u)
    by_cases here : u = v.currentTerminalId
    · subst here
      rw [Function.update_self]
      exact h.curPid
    · rw [Function.update_of_ne here]
      exact h.processOf u

/-- The parent a process returns to is one of them. -/
lemma ProcView.Parented.parent_of_exited (h : v.Parented G) (valid : KernelPtr v.proc.curProcessPtr)
    (ex : Exited v v') : G v.parent := by
  obtain ⟨p, hp, ptr⟩ := h.ptr valid
  have parent : v.parent = (v.proc.pcb (pcbAddr p)).parentPid := by rw [ProcView.parent, ptr]
  rw [parent]
  exact (h.parent p hp).resolve_left (parent ▸ ex.parent)

/-- The end of a process leaves the parents of the others. -/
lemma ProcView.Parented.exited (h : v.Parented G) (valid : KernelPtr v.proc.curProcessPtr)
    (ex : Exited v v') : v'.Parented G := by
  have parent := h.parent_of_exited valid ex
  refine ⟨h.range, fun p hp => ?_, .inr (ex.curPid ▸ parent), fun _ => ?_, fun t => ?_⟩
  · obtain ⟨fa, e⟩ := ex.pcb (pcbAddr p)
    rw [e]
    exact h.parent p hp
  · exact ⟨v.parent, parent, ex.curProcessPtr⟩
  · rw [ex.processOf]
    exact h.processOf t

/-- Descriptor calls leave the processes. -/
lemma ProcView.Parented.fdsChanged (h : v.Parented G) (fds : FdsChanged v v') : v'.Parented G := by
  refine ⟨h.range, fun p hp => ?_, ?_, fun valid => ?_, fun t => ?_⟩
  · obtain ⟨fa, e⟩ := fds.pcb (pcbAddr p)
    rw [e]
    exact h.parent p hp
  · rw [fds.curPid]
    exact h.curPid
  · rw [fds.curProcessPtr] at valid ⊢
    exact h.ptr valid
  · rw [fds.processOf]
    exact h.processOf t

/-- At boot there is no process. -/
lemma parented_boot (b : BootInfo) : (Kernel.boot b).procView.Parented fun _ => False := by
  refine ⟨nofun, nofun, .inl rfl, fun valid => ?_, fun _ => .inl rfl⟩
  have null : (Kernel.boot b).procView.proc.curProcessPtr = 0 := rfl
  rw [null] at valid
  exact absurd valid (by decide)

/-- Every step of the system keeps the processes, up to one that it starts. -/
lemma ProcView.Parented.step {s s' : Kernel} {c : Call} (h : s.procView.Parented G)
    (run : Call.step s c = some s') : ∃ G, s'.procView.Parented G := by
  have effect := Call.effect run
  cases c with
  | execute fr command =>
      rcases effect with same | ⟨pid, st⟩
      · exact ⟨G, same ▸ h⟩
      · exact ⟨_, h.started st⟩
  | halt fr status =>
      rcases effect with ex | ⟨-, pid, st⟩
      · obtain ⟨r, call⟩ := map_fst_eq_some run
        exact ⟨G, h.exited (halt_cases call).1 ex⟩
      · exact ⟨_, h.vacate.started st⟩
  | terminalSwitch fr t =>
      rcases effect with ⟨-, same⟩ | ⟨-, -, same⟩ | ⟨-, -, pid, st⟩
      · exact ⟨G, same ▸ h⟩
      · exact ⟨G, same ▸ h.change t⟩
      · exact ⟨_, (h.change t).started st⟩
  | sysOpen fr filename => exact ⟨G, h.fdsChanged effect⟩
  | sysClose i => exact ⟨G, h.fdsChanged effect⟩
  | sysRead fd buf n => exact ⟨G, h.fdsChanged effect⟩
  | sysWrite fd buf n => exact ⟨G, h.fdsChanged effect⟩
  | getargs buf n => exact ⟨G, h.fdsChanged effect⟩

end Processes

/-! ## Runs -/

/-- What a run keeps: guarded tables, and processes with parents. -/
structure Secure (b : BootInfo) (s : Kernel) : Prop where
  tables : Guarded b s.paging
  processes : ∃ G, s.procView.Parented G

section Runs

variable {b : BootInfo} {s s' : Kernel} {v : ProcView} {pid : Int}

/-- The kernel is secure at boot. -/
lemma secure_boot (placed : TablesPlaced b) : Secure b (Kernel.boot b) :=
  ⟨guarded_boot placed, _, parented_boot b⟩

/-- A process that starts gets its page. -/
lemma Guarded.started (h : Guarded b v.paging) (st : Started v pid s'.procView) :
    Guarded b s'.paging := by
  have paging : s'.paging = v.paging.mapUserPage (2 + pid).toNat := st.paging
  have h0 := st.nonneg
  have h6 := st.below
  have page : (2 + pid).toNat = 2 + pid.toNat := by omega
  rw [paging, page]
  exact h.mapUserPage (by omega)

/-- A call that stores nothing to the kernel's page keeps the kernel secure. -/
lemma Secure.step {c : PageCall} (h : Secure b s) (placed : TablesPlaced b)
    (outside : ¬ StoresToKernel c) (run : c.step s = some s') : Secure b s' := by
  obtain ⟨tables, G, processes⟩ := h
  cases c with
  | execute fr command =>
      have effect := Call.effect (c := .execute fr command) run
      refine ⟨?_, processes.step (c := .execute fr command) run⟩
      rcases effect with same | ⟨pid, st⟩
      · have paging : s'.paging = s.paging := congrArg ProcView.paging same
        exact paging ▸ tables
      · exact Guarded.started (v := s.procView) tables st
  | halt fr status =>
      obtain ⟨r, call⟩ := map_fst_eq_some run
      have valid := (halt_cases call).1
      have effect := Call.effect (c := .halt fr status) run
      refine ⟨?_, processes.step (c := .halt fr status) run⟩
      rcases effect with ex | ⟨-, pid, st⟩
      · have paging : s'.paging = s.paging.mapUserPage (2 + s.procView.parent).toNat := ex.paging
        obtain ⟨h0, h6⟩ := processes.range _ (processes.parent_of_exited valid ex)
        have page : (2 + s.procView.parent).toNat = 2 + s.procView.parent.toNat := by omega
        rw [paging, page]
        exact tables.mapUserPage (by omega)
      · exact Guarded.started (v := s.procView.vacate) tables st
  | terminalSwitch fr t =>
      have effect := Call.effect (c := .terminalSwitch fr t) run
      refine ⟨?_, processes.step (c := .terminalSwitch fr t) run⟩
      rcases effect with ⟨-, same⟩ | ⟨-, -, same⟩ | ⟨-, -, pid, st⟩
      · have paging : s'.paging = s.paging := congrArg ProcView.paging same
        exact paging ▸ tables
      · have paging : s'.paging = s.paging := congrArg ProcView.paging same
        exact paging ▸ tables
      · exact Guarded.started (v := s.procView.change t) tables st
  | vidmap screenStart =>
      obtain ⟨r, call⟩ := map_fst_eq_some run
      have word : ¬ (0x400000 ≤ screenStart.toNat + 3 ∧ screenStart.toNat < 0x800000) :=
        fun overlap => outside ⟨screenStart, rfl, overlap⟩
      refine ⟨tables.vidmap placed word screenStart.isLt call, G, ?_⟩
      obtain ⟨m, pg, rfl⟩ := vidmap_keeps call
      exact ⟨processes.range, processes.parent, processes.curPid, processes.ptr,
        processes.processOf⟩

end Runs

/-- **The pages of the kernel are protected** in every state of a run none of whose `vidmap` calls
is given a word of the kernel's page. -/
theorem protected_of_meets (b : BootInfo) (placed : TablesPlaced b) (cs : List PageCall)
    (outside : Meets PageCall.step (fun _ c => ¬ StoresToKernel c) (Kernel.boot b) cs) :
    Throughout PageCall.step (fun s => Protected s.paging) (Kernel.boot b) cs := by
  have start := secure_boot placed
  refine ⟨start.tables.protected placed, along_of_meets (Secure b)
    (fun s c s' inv ok run => ?_) start
    outside⟩
  have inv' := inv.step placed ok run
  exact ⟨inv', inv'.tables.protected placed⟩

/-- The tables of the small machine are in the kernel's page. -/
lemma tablesPlaced_sample : TablesPlaced sampleBoot where
  dt := ⟨by decide, by decide, by decide⟩
  pt := ⟨by decide, by decide, by decide⟩
  ptVidmem := ⟨by decide, by decide, by decide⟩
  distinct := by decide

/-- The boot shell maps the display and the user moves to the last terminal. -/
def sampleMappings : List PageCall :=
  [.execute sampleFrame (some Kernel.shellCommand), .vidmap 0x08048100,
    .terminalSwitch sampleFrame (Fin.last 2)]

/-- A shell maps the display, and the user opens terminal 2. -/
theorem protected_of_meets_sample :
    Throughout PageCall.step (fun s => Protected s.paging)
      (Kernel.boot sampleBoot) sampleMappings := by
  refine protected_of_meets sampleBoot tablesPlaced_sample sampleMappings ?_
  apply meets_of_inputs
  intro c hc
  rintro ⟨screenStart, rfl, overlap⟩
  obtain rfl : screenStart = 0x08048100 := by simpa [sampleMappings] using hc
  exact absurd overlap (by decide)

/-- A pointer into the table of the low pages, one byte before its entry 1, makes that entry a page
for users at address 0x83000. -/
theorem not_always_protected : ¬ ∀ (b : BootInfo) (cs : List PageCall), TablesPlaced b →
    Throughout PageCall.step (fun s => Protected s.paging) (Kernel.boot b) cs := by
  intro claim
  have facts : (runs PageCall.step (Kernel.boot sampleBoot)
      [.execute sampleFrame (some Kernel.shellCommand), .vidmap 0x00420003]).map
        (fun s => s.paging.userTranslate 0x1000) = some (some 0x83000) := by decide +kernel
  obtain ⟨s, run, walk⟩ := Option.map_eq_some_iff.mp facts
  have safe := (claim sampleBoot _ tablesPlaced_sample).last run
  obtain ⟨p, hp, inside⟩ := safe.confined
  rcases inside 0x83000 ⟨0x1000, by decide, walk⟩ with ⟨frame, -⟩ | ⟨video, -⟩
  · omega
  · omega

end Kernel391
