import Kernel391.Process.Schedule
import Kernel391.Terminal.Pane
import Kernel391.Terminal.Routing

/-!
# Foreground and background output

`putc` and `putc_term` print a character on a pane, wherever the pane is kept: what a character does
is one function of the pane. As a switch changes no pane, output written before a switch and output
written behind it look the same.
-/

namespace Kernel391
open Base

/-- A pane as a page of its own. -/
def Pane.page (p : Pane) : Page where
  mem a := if h : a < 4096 then p.cells ⟨a, h⟩ else 0
  x := p.x
  y := p.y

/-- A character printed on a pane. -/
def Pane.print (p : Pane) (c : UInt8) : Pane :=
  let q := putcAt 0 c p.page
  { p with cells := fun k => q.mem k, x := q.x, y := q.y }

/-- An address outside the video page and the video buffers. -/
def OffScreens (a : Nat) : Prop := OffPage videoMem a ∧ ∀ t < 3, OffPage (videoBuffer t) a

/-- The bytes `bs` are at the pointer `buf`, outside the memory of the screens. -/
def Kernel.Holds (s : Kernel) : Nat → List UInt8 → Prop
  | _, [] => True
  | buf, b :: bs =>
    (∃ pa, s.paging.translate buf = some pa ∧ s.mem pa = b ∧ OffScreens pa) ∧
      s.Holds (add32 buf 1) bs

/-- Two states show the same, and terminal `t`, which is current in neither, holds the same: its
video buffer and its saved cursor, video memory, and the visible cursor as the kernel and the
display have it. -/
structure SameOutput (t : Nat) (a b : Kernel) : Prop where
  buffer : SameOn (OnPage (videoBuffer t)) a.mem b.mem
  savedX : (b.term.terminalArray t).screenCursorX = (a.term.terminalArray t).screenCursorX
  savedY : (b.term.terminalArray t).screenCursorY = (a.term.terminalArray t).screenCursorY
  visible : SameOn (OnPage videoMem) a.mem b.mem
  screen : b.screen = a.screen

section Print

variable {s s' : Kernel} {t u : Nat}

/-- A page that shows a pane shows what is printed on the pane when the character is put on it. -/
lemma print_eq {p : Pane} {base : Nat} {q : Page} (c : UInt8)
    (cells : p.cells = fun k : Fin 4096 => q.mem (base + k)) (x : p.x = q.x) (y : p.y = q.y) :
    p.print c =
      { p with
        cells := fun k => (putcAt base c q).mem (base + k)
        x := (putcAt base c q).x
        y := (putcAt base c q).y } := by
  have alike : Page.Alike 0 base p.page q := by
    refine ⟨fun k hk => ?_, x.symm, y.symm⟩
    rw [fourKb] at hk
    rw [Nat.zero_add, Pane.page]
    dsimp only
    rw [dif_pos hk, cells]
  obtain ⟨mem, x', y'⟩ := putcAt_alike c alike
  have cells' : (fun k : Fin 4096 => (putcAt 0 c p.page).mem k)
      = fun k : Fin 4096 => (putcAt base c q).mem (base + k) := by
    funext k
    have cell := mem k k.isLt
    rw [Nat.zero_add] at cell
    exact cell.symm
  rw [Pane.print, cells', x', y']

/-- `putc` prints on the pane of the current terminal. -/
lemma pane_putc (c : UInt8) (ht : t = s.term.currentTerminalId) :
    (s.putc c).pane t = (s.pane t).print c := by
  have ht' : t = (s.putc c).term.currentTerminalId := ht
  rw [pane_current ht, pane_current ht', print_eq c (q := s.page) rfl rfl rfl]
  rfl

/-- `putc_term` prints on the pane of a terminal that is not current. -/
lemma pane_putcTerm (ok : s.display.Ok) (c : UInt8) (ht : t ≠ s.term.currentTerminalId) :
    (s.putcTerm c t).pane t = (s.pane t).print c := by
  have ht' : t ≠ (s.putcTerm c t).term.currentTerminalId := ht
  have base : (s.term.terminalArray t).videoBufferAddr = videoBuffer t := ok.base t
  have entry : (s.putcTerm c t).term.terminalArray t
      = { s.term.terminalArray t with
          screenCursorX := (putcAt (videoBuffer t) c (s.savedPage t)).x
          screenCursorY := (putcAt (videoBuffer t) c (s.savedPage t)).y } := by
    rw [← base]
    exact Function.update_self ..
  have mem : (s.putcTerm c t).mem = (putcAt (videoBuffer t) c (s.savedPage t)).mem := by
    rw [← base]
    rfl
  rw [pane_parked ht, pane_parked ht', print_eq c (q := s.savedPage t) rfl rfl rfl, entry, mem]

/-- What output on terminal `t` keeps, from `s` on. -/
structure Printed (t : Nat) (s s' : Kernel) : Prop where
  ok : s'.display.Ok
  current : s'.term.currentTerminalId = s.term.currentTerminalId
  kbd : s'.kbd = s.kbd
  paging : s'.paging = s.paging
  only : OnlyScreen t s s'

/-- Nothing printed yet. -/
lemma Printed.refl (ok : s.display.Ok) (t : Nat) : Printed t s s := ⟨ok, rfl, rfl, rfl, .refl t s⟩

/-- One more character on the current terminal. -/
lemma Printed.putc (h : Printed t s s') (ht : t = s.term.currentTerminalId) (c : UInt8) :
    Printed t s (s'.putc c) := by
  have printed := onlyScreen_putc h.ok c
  rw [h.current, ← ht] at printed
  exact ⟨h.ok.putc c, h.current, h.kbd, h.paging, h.only.trans h.current printed⟩

/-- One more character on another terminal. -/
lemma Printed.putcTerm (h : Printed t s s') (ht : t ≠ s.term.currentTerminalId) (c : UInt8) :
    Printed t s (s'.putcTerm c t) := by
  have printed := onlyScreen_putcTerm h.ok c (t := t) (h.current.symm ▸ ht)
  exact ⟨h.ok.putcTerm c t, h.current, h.kbd, h.paging, h.only.trans h.current printed⟩

/-- Output on one terminal leaves the panes of the others alone. -/
lemma Printed.pane (h : Printed t s s') (hu : u ≠ t) : s'.pane u = s.pane u := by
  have entry := h.only.saved u (.inl hu)
  by_cases huc : u = s.term.currentTerminalId
  · have htc : t ≠ s.term.currentTerminalId := fun e => hu (huc.trans e.symm)
    have mem := h.only.mem
    rw [if_neg htc] at mem
    have cells : (fun k : Fin 4096 => s'.mem (videoMem + k))
        = fun k : Fin 4096 => s.mem (videoMem + k) := by
      funext k
      apply mem
      rintro ⟨low, -⟩
      have := k.isLt
      simp only [videoBuffer, videoMem, fourKb] at low
      omega
    rw [pane_current huc, pane_current (huc.trans h.current.symm), cells, h.only.visible htc, h.kbd,
      Term.current, Term.current, h.current, ← huc, entry]
  · have cells : (fun k : Fin 4096 => s'.mem (videoBuffer u + k))
        = fun k : Fin 4096 => s.mem (videoBuffer u + k) := by
      funext k
      apply h.only.mem
      have := k.isLt
      split_ifs
      · exact offPage_videoBuffer u k
      · rintro ⟨low, high⟩
        simp only [videoBuffer, fourKb] at low high
        omega
    rw [pane_parked huc, pane_parked (h.current.symm ▸ huc), cells, entry]

/-- Output on a terminal leaves everything but the screens alone. -/
lemma Printed.offScreens (h : Printed t s s') (ht : t < 3) : SameOn OffScreens s.mem s'.mem := by
  apply h.only.mem.mono
  rintro a ⟨visible, buffers⟩
  split_ifs
  · exact visible
  · exact buffers t ht

end Print

section Write

variable {s s' : Kernel} {t u buf : Nat} {bs : List UInt8}

/-- The screens are far below the user pages. -/
lemma offScreens_user {a : Nat} (h : 0x800000 ≤ a) : OffScreens a := by
  simp only [OffScreens, OffPage, OnPage, videoMem, videoBuffer, fourKb]
  exact ⟨by omega, fun t ht => by omega⟩

/-- A buffer off the screens keeps its bytes. -/
lemma Kernel.Holds.frame (h : s.Holds buf bs) (paging : s'.paging = s.paging)
    (same : SameOn OffScreens s.mem s'.mem) : s'.Holds buf bs := by
  induction bs generalizing buf with
  | nil => trivial
  | cons b bs ih =>
      obtain ⟨⟨pa, translate, byte, off⟩, rest⟩ := h
      exact ⟨⟨pa, paging ▸ translate, (same pa off).trans byte, off⟩, ih rest⟩

/-- The loop prints the bytes at the buffer, when printing keeps them there. -/
lemma writeLoop_eq {P : Kernel → Prop} {out : Kernel → UInt8 → Kernel} (holds : s.Holds buf bs)
    (frame : ∀ s', P s' → s'.paging = s.paging ∧ SameOn OffScreens s.mem s'.mem)
    (keep : ∀ s' c, P s' → P (out s' c)) (h : P s') :
    Kernel.writeLoop out bs.length buf s' = some (bs.foldl out s') := by
  induction bs generalizing buf s' with
  | nil => rfl
  | cons b bs ih =>
      obtain ⟨⟨pa, translate, byte, off⟩, rest⟩ := holds
      obtain ⟨paging, same⟩ := frame s' h
      have load : s'.load buf = some b := by
        rw [Kernel.load, paging, translate, Option.map_some, same pa off, byte]
      rw [List.length_cons, Kernel.writeLoop, load]
      exact ih rest (keep s' b h)

/-- Printing a list of bytes, one after the other, on a pane. -/
lemma foldl_print {P : Kernel → Prop} {out : Kernel → UInt8 → Kernel}
    (keep : ∀ s' c, P s' → P (out s' c))
    (print : ∀ s' c, P s' → (out s' c).pane t = (s'.pane t).print c) (h : P s') :
    P (bs.foldl out s') ∧ (bs.foldl out s').pane t = bs.foldl Pane.print (s'.pane t) := by
  induction bs generalizing s' with
  | nil => exact ⟨h, rfl⟩
  | cons b bs ih =>
      have step := print s' b h
      obtain ⟨last, pane⟩ := ih (keep s' b h)
      rw [step] at pane
      exact ⟨last, pane⟩

/-- `terminal_write` prints its bytes on the pane of `n_terminal`, in the foreground as in the
background. -/
lemma terminalWrite_print (ok : s.display.Ok) (ht : s.getNTerminal < 3) (holds : s.Holds buf bs)
    (ne : buf ≠ 0) : ∃ s', s.terminalWrite buf bs.length = some ((bs.length : Int), s') ∧
      Printed s.getNTerminal s s' ∧
      s'.pane s.getNTerminal = bs.foldl Pane.print (s.pane s.getNTerminal) := by
  have frame (s' : Kernel) (h : Printed s.getNTerminal s s') :
      s'.paging = s.paging ∧ SameOn OffScreens s.mem s'.mem := ⟨h.paging, h.offScreens ht⟩
  have start := Printed.refl ok s.getNTerminal
  rw [Kernel.terminalWrite, if_neg ne]
  dsimp only
  rw [Int.toNat_natCast]
  by_cases shown : s.term.currentTerminalId = s.getNTerminal
  · rw [if_pos shown]
    have keep (s' : Kernel) (c : UInt8) (h : Printed s.getNTerminal s s') :
        Printed s.getNTerminal s (s'.putc c) := h.putc shown.symm c
    obtain ⟨last, pane⟩ := foldl_print (t := s.getNTerminal) keep
      (fun s' c h => pane_putc c (shown.symm.trans h.current.symm)) start
    exact ⟨_, by rw [writeLoop_eq holds frame keep start]; rfl, last, pane⟩
  · rw [if_neg shown]
    have away : s.getNTerminal ≠ s.term.currentTerminalId := Ne.symm shown
    have keep (s' : Kernel) (c : UInt8) (h : Printed s.getNTerminal s s') :
        Printed s.getNTerminal s (s'.putcTerm c s.getNTerminal) := h.putcTerm away c
    obtain ⟨last, pane⟩ := foldl_print (t := s.getNTerminal) keep
      (fun s' c h => pane_putcTerm h.ok c (h.current.symm ▸ away)) start
    exact ⟨_, by rw [writeLoop_eq holds frame keep start]; rfl, last, pane⟩

end Write

section Switch

variable {s a b : Kernel} {t u buf : Nat} {bs : List UInt8}

/-- A switch copies whole screens. -/
lemma offScreens_changeTerminal (ok : s.display.Ok) (hu : u ≠ s.term.currentTerminalId)
    (ht : s.term.currentTerminalId < 3) : SameOn OffScreens s.mem (s.changeTerminal u).mem := by
  rintro k ⟨visible, buffers⟩
  have buffer := buffers _ ht
  simp only [OffPage, OnPage] at visible buffer
  rw [mem_changeTerminal ok hu, Mem.blit_frame (by omega), Mem.blit_frame (by omega)]

/-- A switch to a terminal that has a process starts none. -/
lemma terminalSwitch_process (fr : Frame) (hu : u ≠ s.term.currentTerminalId)
    (process : (s.term.terminalArray u).currentProcessId ≠ -1) :
    s.terminalSwitch fr u = some (s.changeTerminal u, .ret 0) := by
  rw [Kernel.terminalSwitch, if_neg hu, if_neg process]

/-- Kernels with the same panes show the same. -/
lemma sameOutput_of_panes (ha : u = a.term.currentTerminalId) (hb : u = b.term.currentTerminalId)
    (htu : t ≠ u) (parked : a.pane t = b.pane t) (shown : a.pane u = b.pane u) (sa : a.Synced)
    (sb : b.Synced) : SameOutput t a b := by
  obtain ⟨⟨visible, x, y⟩, -, -⟩ := (pane_eq_iff ha hb).mp shown
  have hta : t ≠ a.term.currentTerminalId := ha ▸ htu
  have htb : t ≠ b.term.currentTerminalId := hb ▸ htu
  rw [pane_parked hta, pane_parked htb] at parked
  obtain ⟨cells, savedX, savedY, -, -⟩ := Pane.mk.inj parked
  have x : b.screen.screenX = a.screen.screenX := x
  have y : b.screen.screenY = a.screen.screenY := y
  refine ⟨fun c hc => ?_, savedX.symm, savedY.symm, visible, ?_⟩
  · obtain ⟨k, rfl⟩ := onPage_iff.mp hc
    exact (congrFun cells k).symm
  · have cursor : b.screen.cursor = a.screen.cursor := by
      rw [sa, sb, x, y]
    calc
      b.screen = ⟨b.screen.screenX, b.screen.screenY, b.screen.cursor⟩ := rfl
      _ = a.screen := by rw [x, y, cursor]

/-- Output on terminal `n_terminal` while it is current, before a switch to another terminal, leaves
what output behind the switch leaves. -/
theorem write_switch_agree (fr fr' : Frame) (ok : s.display.Ok) (lt : s.getNTerminal < 3)
    (current : s.term.currentTerminalId = s.getNTerminal) (hu : u ≠ s.getNTerminal)
    (process : (s.term.terminalArray u).currentProcessId ≠ -1)
    (holds : s.Holds buf bs) (ne : buf ≠ 0) :
    ∃ a b, ((s.terminalWrite buf bs.length).bind fun w => w.2.terminalSwitch fr u)
      = some (a, .ret 0) ∧
      ((s.terminalSwitch fr' u).bind fun w => w.1.terminalWrite buf bs.length)
        = some ((bs.length : Int), b) ∧
      SameOutput s.getNTerminal a b := by
  have huc : u ≠ s.term.currentTerminalId := current.symm ▸ hu
  -- written first
  obtain ⟨s1, write1, printed1, pane1⟩ := terminalWrite_print ok lt holds ne
  have huc1 : u ≠ s1.term.currentTerminalId := printed1.current.symm ▸ huc
  have entry1 := printed1.only.saved u (.inl hu)
  have switch1 := terminalSwitch_process fr huc1 (entry1.symm ▸ process)
  -- switched first
  have switch2 := terminalSwitch_process fr' huc process
  have holds2 : (s.changeTerminal u).Holds buf bs :=
    holds.frame rfl (offScreens_changeTerminal ok huc (current.symm ▸ lt))
  obtain ⟨b, write2, printed2, pane2⟩ :=
    terminalWrite_print (s := s.changeTerminal u) (ok.changeTerminal huc) lt holds2 ne
  have hub : u ≠ (s.changeTerminal u).getNTerminal := hu
  refine ⟨s1.changeTerminal u, b, ?_, ?_, ?_⟩
  · rw [write1, Option.bind_some]
    exact switch1
  · rw [switch2, Option.bind_some]
    exact write2
  · apply sameOutput_of_panes (u := u) rfl printed2.current.symm (Ne.symm hu)
    · have pane2 : b.pane s.getNTerminal
          = bs.foldl Pane.print ((s.changeTerminal u).pane s.getNTerminal) := pane2
      rw [pane_changeTerminal printed1.ok huc1, pane1, pane2, pane_changeTerminal ok huc]
    · rw [pane_changeTerminal printed1.ok huc1, printed1.pane hu, printed2.pane hub,
        pane_changeTerminal ok huc]
    · exact synced_changeTerminal s1 u
    · have away : (s.changeTerminal u).getNTerminal ≠ (s.changeTerminal u).term.currentTerminalId :=
        Ne.symm hu
      have same := printed2.only.visible away
      have synced := synced_changeTerminal s u
      rw [Kernel.Synced] at synced ⊢
      rw [same]
      exact synced

end Switch

/-- The shell of terminal 0, with that of terminal 1 in the background, prints two bytes of the
program in the user page. -/
theorem write_switch_agree_sample : ∃ s, twoShells 1 0 = some s ∧
    ∃ a b, ((s.terminalWrite 0x08048001 2).bind fun w => w.2.terminalSwitch sampleFrame 1)
        = some (a, .ret 0) ∧
      ((s.terminalSwitch sampleFrame 1).bind fun w => w.1.terminalWrite 0x08048001 2)
        = some (2, b) ∧
      SameOutput s.getNTerminal a b := by
  have facts : (twoShells 1 0).map (fun s => (s.term.currentTerminalId, s.getNTerminal,
      (s.term.terminalArray 1).currentProcessId)) = some (0, 0, 1) := by decide +kernel
  have text : (twoShells 1 0).map (fun s => (s.paging.translate 0x08048001,
      s.paging.translate 0x08048002, s.mem 0xC48001, s.mem 0xC48002))
      = some (some 0xC48001, some 0xC48002, 0x45, 0x4C) := by decide +kernel
  obtain ⟨s, hs, e⟩ := Option.map_eq_some_iff.mp facts
  rw [hs] at text
  simp only [Prod.mk.injEq] at e
  obtain ⟨current, terminal, process⟩ := e
  simp only [Option.map_some, Option.some.injEq, Prod.mk.injEq] at text
  obtain ⟨place, place', byte, byte'⟩ := text
  have holds : s.Holds 0x08048001 [0x45, 0x4C] :=
    ⟨⟨0xC48001, place, byte, offScreens_user (by decide)⟩,
      ⟨0xC48002, place', byte', offScreens_user (by decide)⟩, trivial⟩
  have ok : s.display.Ok := by
    obtain ⟨s0, h0, run⟩ := Option.bind_eq_some_iff.mp hs
    exact inv_runs (fun s => s.display.Ok)
      (fun _ _ _ ok step => ok.step step) (display_bootShell h0) run
  have agree := write_switch_agree sampleFrame sampleFrame ok (by omega) (by omega)
    (u := 1) (by omega) (by rw [process]; decide) holds (by decide)
  exact ⟨s, hs, agree⟩

end Kernel391
