import Kernel391.Process.Bracket
import Kernel391.Terminal.Display

/-!
# Output routing

`terminal_write` prints on the screen of the scheduler's `n_terminal`, whatever terminal the process
that writes belongs to. With the timer off `n_terminal` never changes, while the process that runs
always belongs to the current terminal; so output goes to the right screen as long as nothing is
written while another terminal than `n_terminal` is current.
-/

namespace Kernel391
open Base

/-- Process `cur_pid` is on the chain of parents of terminal `t`. -/
def ProcView.Owner (v : ProcView) (t : Fin 3) : Prop :=
  ∃ l, Linked v.parentOf (-1) (v.leader t) l ∧ v.proc.curPid ∈ l

/-- From `s` to `s'` only the screen of terminal `t` changed: video memory and the visible cursor
when the terminal is current, else its video buffer and saved cursor. -/
structure OnlyScreen (t : Nat) (s s' : Kernel) : Prop where
  mem : SameOn (OffPage (if t = s.term.currentTerminalId then videoMem else videoBuffer t))
    s.mem s'.mem
  visible : t ≠ s.term.currentTerminalId → s'.screen = s.screen
  saved : ∀ u, u ≠ t ∨ t = s.term.currentTerminalId →
    s'.term.terminalArray u = s.term.terminalArray u

/-- The call prints characters while `n_terminal` is not the current terminal. -/
def WritesHidden (s : Kernel) (c : Call) : Prop :=
  ∃ fd buf n, c = .sysWrite fd buf n ∧ userBuffer buf n ∧ fd.toNat < 7 ∧ fd.toNat ≠ 0 ∧
    (s.proc.fd fd.toNat).flags ≠ 0 ∧ (s.proc.fd fd.toNat).fileotPointer = 3 ∧ 0 < n.toInt ∧
    s.term.currentTerminalId ≠ s.getNTerminal

section Lemmas

variable {s s' : Kernel} {t : Nat}

/-- Nothing printed changes no screen. -/
lemma OnlyScreen.refl (t : Nat) (s : Kernel) : OnlyScreen t s s :=
  ⟨.refl, fun _ => rfl, fun _ _ => rfl⟩

/-- `putc` prints to the current terminal. -/
lemma onlyScreen_putc (h : s.display.Ok) (c : UInt8) :
    OnlyScreen s.term.currentTerminalId s (s.putc c) := by
  refine ⟨?_, fun ne => absurd rfl ne, fun _ _ => rfl⟩
  rw [if_pos rfl]
  exact (putcAt_spec videoMem s.page c h.visible).2

/-- `putc_term` prints to the terminal it is given. -/
lemma onlyScreen_putcTerm (h : s.display.Ok) (c : UInt8) (ht : t ≠ s.term.currentTerminalId) :
    OnlyScreen t s (s.putcTerm c t) := by
  refine ⟨?_, fun _ => rfl, fun u hu => ?_⟩
  · rw [if_neg ht]
    have base : (s.term.terminalArray t).videoBufferAddr = videoBuffer t := h.base t
    have off := (putcAt_spec (s.term.terminalArray t).videoBufferAddr (s.savedPage t) c
      (h.saved t)).2
    rw [base] at off
    rw [Kernel.putcTerm, base]
    exact off
  · rcases hu with hu | hu
    · exact Function.update_of_ne hu ..
    · exact absurd hu ht

/-- `putc` and `putc_term` never change which terminal is current. -/
lemma OnlyScreen.trans {s'' : Kernel} (h : OnlyScreen t s s')
    (current : s'.term.currentTerminalId = s.term.currentTerminalId) (h' : OnlyScreen t s' s'') :
    OnlyScreen t s s'' := by
  obtain ⟨mem, visible, saved⟩ := h
  obtain ⟨mem', visible', saved'⟩ := h'
  rw [current] at mem' visible' saved'
  exact ⟨mem.trans mem', fun ne => (visible' ne).trans (visible ne),
    fun u hu => (saved' u hu).trans (saved u hu)⟩

/-- `terminal_write` only ever changes the screen of `n_terminal`. -/
lemma onlyScreen_terminalWrite (h : s.display.Ok) {buf : Nat} {n r : Int}
    (run : s.terminalWrite buf n = some (r, s')) : OnlyScreen s.getNTerminal s s' := by
  have kept : s'.display.Ok ∧ s'.term.currentTerminalId = s.term.currentTerminalId ∧
      OnlyScreen s.getNTerminal s s' := by
    apply terminalWrite_inv (P := fun t => t.display.Ok ∧
      t.term.currentTerminalId = s.term.currentTerminalId ∧ OnlyScreen s.getNTerminal s t) _ _ _ run
    · exact ⟨h, rfl, .refl _ s⟩
    · rintro shown t c ⟨ok, current, only⟩
      have printed := onlyScreen_putc ok c
      rw [current, shown] at printed
      exact ⟨ok.putc c, current, only.trans current printed⟩
    · rintro away t c ⟨ok, current, only⟩
      have printed := onlyScreen_putcTerm ok c (t := s.getNTerminal) (current.symm ▸ Ne.symm away)
      exact ⟨ok.putcTerm c _, current, only.trans current printed⟩
  exact kept.2.2

/-- The process that runs belongs to the current terminal and to no other. -/
lemma ProcView.Forest.owner_iff {v : ProcView} (h : v.Forest) (t : Fin 3) :
    v.Owner t ↔ (t : Nat) = v.currentTerminalId := by
  obtain ⟨chain, hp⟩ := h.planted
  obtain ⟨c, hc⟩ := hp.exists_index
  obtain ⟨l, hl, -⟩ := h.current_chain hc hp
  have on : v.proc.curPid ∈ chain c := hl ▸ List.mem_cons_self
  constructor
  · rintro ⟨l', hl', mem⟩
    -- chains are disjoint, so `cur_pid` is on one of them only
    have same : l' = chain t := hl'.unique (hp.chains t)
    have tc : t = c := hp.stacked.eq_of_mem (same ▸ mem) on
    exact tc ▸ hc
  · intro ht
    have e : t = c := Fin.ext (ht.trans hc.symm)
    subst e
    exact ⟨chain t, hp.chains t, on⟩

/-- What a step that writes to no hidden terminal does to the screens. -/
lemma onlyScreen_step (ok : s.display.Ok) {fd buf n : BitVec 32}
    (shown : ¬ WritesHidden s (.sysWrite fd buf n))
    (run : Call.step s (.sysWrite fd buf n) = some s') :
    OnlyScreen s.term.currentTerminalId s s' := by
  obtain ⟨r, hr⟩ := map_fst_eq_some run
  rcases sysWrite_cases hr with rfl | rfl | ⟨⟨hb, h7, h0, hf, h3⟩, ht⟩
  · exact .refl _ _
  · exact ⟨.refl, fun _ => rfl, fun _ _ => rfl⟩
  · by_cases same : s.term.currentTerminalId = s.getNTerminal
    · rw [same]
      exact onlyScreen_terminalWrite ok ht
    · -- nothing is printed
      have zero : n.toInt.toNat = 0 := by
        by_contra pos
        exact shown ⟨fd, buf, n, rfl, hb, h7, h0, hf, h3, by omega, same⟩
      rw [Kernel.terminalWrite, zero] at ht
      split at ht
      · cases ht; exact .refl _ _
      · cases ht; exact .refl _ _

end Lemmas

/-- In a run from the boot shell that prints nothing while another terminal than `n_terminal` is
current, every write changes only the screen of the terminal that the process that runs belongs
to. -/
theorem output_routed (fr : Frame) (b : BootInfo) (s : Kernel) (cs : List Call)
    (h : bootShell fr b = some s) (shown : Meets Call.step (fun s c => ¬ WritesHidden s c) s cs) :
    Along Call.step (fun s c s' => ∀ fd buf n, c = .sysWrite fd buf n →
      ∃ t, s.procView.Owner t ∧ (∀ u, s.procView.Owner u → u = t) ∧ OnlyScreen t s s') s cs := by
  have keep (s : Kernel) (c : Call) (s' : Kernel) (inv : s.procView.Forest ∧ s.display.Ok)
      (hc : ¬ WritesHidden s c) (run : Call.step s c = some s') :
      (s'.procView.Forest ∧ s'.display.Ok) ∧ ∀ fd buf n, c = .sysWrite fd buf n →
        ∃ t, s.procView.Owner t ∧ (∀ u, s.procView.Owner u → u = t) ∧ OnlyScreen t s s' := by
    obtain ⟨forest, ok⟩ := inv
    refine ⟨⟨forest_step forest run, ok.step run⟩, ?_⟩
    rintro fd buf n rfl
    obtain ⟨chain, hp⟩ := forest.planted
    obtain ⟨t, ht⟩ := hp.exists_index
    refine ⟨t, (forest.owner_iff t).mpr ht, fun u hu => ?_, ?_⟩
    · exact Fin.ext (((forest.owner_iff u).mp hu).trans ht.symm)
    · rw [ht]
      exact onlyScreen_step ok hc run
  exact along_of_meets (fun s : Kernel => s.procView.Forest ∧ s.display.Ok) keep
    ⟨forest_bootShell h, display_bootShell h⟩ shown

/-- A shell started by the boot shell writes, the user looks at terminal `t` and comes back to `u`,
and the shell writes again. -/
def sampleWrites (t u : Fin 3) : List Call :=
  [.execute sampleFrame (some Kernel.shellCommand), .sysWrite 1 0x08048000 4,
    .terminalSwitch sampleFrame t, .terminalSwitch sampleFrame u, .sysWrite 1 0x08048000 4]

/-- All that is written is shown on terminal 0 only. -/
theorem output_routed_sample : ∃ s s', bootShell sampleFrame sampleBoot = some s ∧
    runs Call.step s (sampleWrites 1 0) = some s' ∧
    Along Call.step (fun s c s' => ∀ fd buf n, c = .sysWrite fd buf n →
      ∃ t, s.procView.Owner t ∧ (∀ u, s.procView.Owner u → u = t) ∧ OnlyScreen t s s') s
      (sampleWrites 1 0) := by
  have facts : ((bootShell sampleFrame sampleBoot).bind fun s =>
      (Call.step s (.execute sampleFrame (some Kernel.shellCommand))).bind fun s₁ =>
      (Call.step s₁ (.sysWrite 1 0x08048000 4)).bind fun s₂ =>
      (Call.step s₂ (.terminalSwitch sampleFrame 1)).bind fun s₃ =>
      (Call.step s₃ (.terminalSwitch sampleFrame 0)).bind fun s₄ =>
      (Call.step s₄ (.sysWrite 1 0x08048000 4)).map fun s₅ =>
        [s₁, s₄].map fun s => (s.term.currentTerminalId, s.getNTerminal))
      = some [(0, 0), (0, 0)] := by decide +kernel
  obtain ⟨s, hs, h⟩ := Option.bind_eq_some_iff.mp facts
  obtain ⟨s₁, h₁, h⟩ := Option.bind_eq_some_iff.mp h
  obtain ⟨s₂, h₂, h⟩ := Option.bind_eq_some_iff.mp h
  obtain ⟨s₃, h₃, h⟩ := Option.bind_eq_some_iff.mp h
  obtain ⟨s₄, h₄, h⟩ := Option.bind_eq_some_iff.mp h
  obtain ⟨s₅, h₅, e⟩ := Option.map_eq_some_iff.mp h
  simp only [List.map_cons, List.cons.injEq, Prod.mk.injEq] at e
  obtain ⟨⟨c₁, n₁⟩, ⟨c₄, n₄⟩, -⟩ := e
  have here {s : Kernel} {c : Call} (current : s.term.currentTerminalId = 0)
      (owner : s.getNTerminal = 0) : ¬ WritesHidden s c := by
    rintro ⟨fd, buf, n, -, -, -, -, -, -, -, ne⟩
    exact ne (current.trans owner.symm)
  have silent {s : Kernel} {c : Call} (other : ∀ fd buf n, c ≠ .sysWrite fd buf n) :
      ¬ WritesHidden s c := by
    rintro ⟨fd, buf, n, write, -⟩
    exact other fd buf n write
  have shown : Meets Call.step (fun s c => ¬ WritesHidden s c) s (sampleWrites 1 0) :=
    .cons (silent fun _ _ _ => Call.noConfusion) h₁ (.cons (here c₁ n₁) h₂
      (.cons (silent fun _ _ _ => Call.noConfusion) h₃
        (.cons (silent fun _ _ _ => Call.noConfusion) h₄ (.cons (here c₄ n₄) h₅ trivial))))
  refine ⟨s, s₅, hs, ?_, output_routed sampleFrame sampleBoot s (sampleWrites 1 0) hs shown⟩
  simp only [sampleWrites, runs_cons, runs_nil, h₁, h₂, h₃, h₄, h₅, Option.bind_some]

/-- The shell of terminal 1 writes four bytes; they appear in the video buffer of terminal 0. -/
theorem not_always_routed : ¬ ∀ (fr : Frame) (b : BootInfo) (s : Kernel) (cs : List Call),
    bootShell fr b = some s →
    Along Call.step (fun s c s' => ∀ fd buf n, c = .sysWrite fd buf n →
      ∃ t, s.procView.Owner t ∧ (∀ u, s.procView.Owner u → u = t) ∧ OnlyScreen t s s') s cs := by
  intro claim
  have facts : ((bootShell sampleFrame sampleBoot).bind fun s =>
      (Call.step s (.terminalSwitch sampleFrame 1)).bind fun s₁ =>
      (Call.step s₁ (.sysWrite 1 0x08048000 4)).map fun s₂ =>
        (s₁.term.currentTerminalId, s₁.mem (videoBuffer 0), s₂.mem (videoBuffer 0)))
      = some (1, 0, 0x7F) := by decide +kernel
  obtain ⟨s, hs, h⟩ := Option.bind_eq_some_iff.mp facts
  obtain ⟨s₁, h₁, h⟩ := Option.bind_eq_some_iff.mp h
  obtain ⟨s₂, h₂, e⟩ := Option.map_eq_some_iff.mp h
  simp only [Prod.mk.injEq] at e
  obtain ⟨current, before, after⟩ := e
  have along := claim sampleFrame sampleBoot s
    [.terminalSwitch sampleFrame 1, .sysWrite 1 0x08048000 4] hs
  obtain ⟨-, along⟩ := along s₁ h₁
  obtain ⟨t, owner, -, only⟩ := (along s₂ h₂).1 1 0x08048000 4 rfl
  have forest := forest_step (forest_bootShell hs) h₁
  have ht : (t : Nat) = s₁.term.currentTerminalId := (forest.owner_iff t).mp owner
  have mem := only.mem
  rw [if_pos ht] at mem
  have off : OffPage videoMem (videoBuffer 0) := fun on => absurd on.2 (by decide)
  rw [mem _ off, before] at after
  exact absurd after (by decide)

end Kernel391
