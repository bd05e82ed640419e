import Mathlib.Data.Bool.AllAny
import Kernel391.Base.LineEdit
import Kernel391.Terminal.Reads

/-!
# Line editing

The reference editor keeps the modifiers and the line; a key edits the line at its end (`Key.edit`).
Whatever is stale behind `buffer_position`, the keyboard driver and a read after Enter show the
editor's line (`line_editing`). With keystrokes in place of characters the same editor tells which
keys are left in a line, and so when Caps Lock flips the case of its letters only (`caps_flips`).
-/

namespace Kernel391
open Base

/-- The edit a key makes. -/
def Key.edit : Key → Edit UInt8
  | .type c => .add [c]
  | .tab => .add (List.replicate 4 32)
  | .backspace => .dropLast
  | .clear => .clear
  | .mods _ => .add []
  | .switch _ => .add []
  | .enter => .add []
  | .ignored => .add []

/-- The modifiers after a key. -/
def Key.modsAfter (md : Mods) : Key → Mods
  | .mods md' => md'
  | _ => md

/-- The reference editor. -/
structure Editor where
  mods : Mods
  text : List UInt8

namespace Editor

/-- What a keyboard interrupt does to the editor. -/
def strike (ed : Editor) (scancode : UInt8) : Editor where
  mods := (ed.mods.key scancode).modsAfter ed.mods
  text := (ed.mods.key scancode).edit.on 127 ed.text

/-- The scancodes contain no Enter, and no function key while Alt is down. -/
def Edits (ed : Editor) : List UInt8 → Prop
  | [] => True
  | scancode :: rest =>
    (scancode ≠ 0x1C ∧ ¬ (ed.mods.altPressed = true ∧ scancode ∈ [0x3B, 0x3C, 0x3D])) ∧
      (ed.strike scancode).Edits rest

/-- Whether keys only edit can be read from them. -/
instance decidableEdits : (ed : Editor) → (scancodes : List UInt8) → Decidable (ed.Edits scancodes)
  | _, [] => inferInstanceAs (Decidable True)
  | ed, scancode :: rest =>
    have := decidableEdits (ed.strike scancode) rest
    inferInstanceAs (Decidable (_ ∧ _))

end Editor

/-- One keyboard interrupt. -/
def keyStep (s : Kernel) (e : KeyEvent) : Option Kernel := s.handleKeyboardIrq e.fr e.scancode

/-- The current line and the modifiers are the editor's. -/
structure Shows (s : Kernel) (ed : Editor) : Prop where
  mods : s.kbd.mods = ed.mods
  text : s.line.text = ed.text
  pos : s.line.pos ≤ 127
  single : 10 ∉ ed.text

section Keys

variable {s s' : Kernel} {md : Mods} {scancode : UInt8} {c : UInt8} {l : Line}

/-- A typed character leaves the modifiers. -/
lemma mods_typeChar (s : Kernel) (c : UInt8) : (s.typeChar c).kbd.mods = s.kbd.mods := by
  rw [Kernel.typeChar]
  split_ifs <;> rfl

/-- `clean_buffer` leaves the modifiers. -/
lemma mods_cleanBuffer (s : Kernel) : s.cleanBuffer.kbd.mods = s.kbd.mods := by
  have indices : s.cleanIndices.kbd.mods = s.kbd.mods := by
    unfold Kernel.cleanIndices
    exact foldl_keeps (fun t => t.kbd.mods) (f := Kernel.cleanIndex) (fun _ _ => rfl) _
  exact indices

/-- Only modifier keys change the modifiers. -/
lemma mods_press (s : Kernel) (k : Key) : (s.press k).kbd.mods = k.modsAfter s.kbd.mods := by
  cases k with
  | backspace =>
      show (if s.kbd.bufferPosition > 0 then
        { s with kbd.bufferPosition := s.kbd.bufferPosition - 1 }.backspaceHandler
        else s).kbd.mods = s.kbd.mods
      split_ifs
      · rw [Kernel.backspaceHandler]
        split_ifs <;> rfl
      · rfl
  | tab =>
      show ((((s.typeChar 32).typeChar 32).typeChar 32).typeChar 32).kbd.mods = s.kbd.mods
      rw [mods_typeChar, mods_typeChar, mods_typeChar, mods_typeChar]
  | clear => exact mods_cleanBuffer s.cleanScreen
  | type c => exact mods_typeChar s c
  | _ => rfl

/-- A typed character is added to the text, if it fits. -/
lemma Line.text_type (h : l.pos ≤ 127) (c : UInt8) :
    (l.type c).text = (Edit.add [c]).on 127 l.text ∧ (l.type c).pos ≤ 127 := by
  rw [Line.type]
  split_ifs with room
  · refine ⟨?_, room⟩
    have short : (l.text ++ [c]).length ≤ 127 := by
      rw [List.length_append, length_text, List.length_singleton]
      omega
    show Line.text { l.put c with pos := l.pos + 1 } = (l.text ++ [c]).take 127
    rw [List.take_of_length_le short]
    exact text_append l c
  · refine ⟨?_, h⟩
    have full : l.text.length = 127 := by
      rw [length_text]
      omega
    show l.text = (l.text ++ [c]).take 127
    rw [← full, List.take_left]

/-- Keys edit the line at its end, whatever is stale behind the position. -/
lemma Line.text_press (h : l.pos ≤ 127) (k : Key) :
    (l.press k).text = k.edit.on 127 l.text ∧ (l.press k).pos ≤ 127 := by
  have same : l.text = (Edit.add []).on 127 l.text :=
    (Edit.on_add_nil (by rw [length_text]; exact h)).symm
  cases k with
  | mods md => exact ⟨same, h⟩
  | backspace =>
      refine ⟨text_dropLast l, ?_⟩
      show l.pos - 1 ≤ 127
      omega
  | tab =>
      obtain ⟨t1, h1⟩ := text_type h 32
      obtain ⟨t2, h2⟩ := text_type h1 32
      obtain ⟨t3, h3⟩ := text_type h2 32
      obtain ⟨t4, h4⟩ := text_type h3 32
      refine ⟨?_, h4⟩
      show ((((l.type 32).type 32).type 32).type 32).text = _
      rw [t4, t3, t2, t1, ← Edit.on_add_append, ← Edit.on_add_append, ← Edit.on_add_append]
      rfl
  | switch t => exact ⟨same, h⟩
  | clear => exact ⟨rfl, Nat.zero_le _⟩
  | enter => exact ⟨(text_put l 10).trans same, h⟩
  | type c => exact text_type h c
  | ignored => exact ⟨same, h⟩

/-- Only a function key struck while Alt is down switches terminals. -/
lemma Mods.key_switch {t : Fin 3} (h : md.key scancode = .switch t) :
    md.altPressed = true ∧ scancode ∈ [0x3B, 0x3C, 0x3D] := by
  have char : md.charKey scancode ≠ .switch t := by
    rw [Mods.charKey]
    dsimp only
    split_ifs <;> exact Key.noConfusion
  have alt {u : Fin 3} (h : (if md.altPressed then Key.switch u else .ignored) = .switch t) :
      md.altPressed = true := by
    by_contra up
    rw [if_neg up] at h
    exact Key.noConfusion h
  rw [Mods.key] at h
  iterate 10 replace h := (Key.of_ite Key.noConfusion h).2
  split_ifs at h with f1 a f2 a f3 a
  · subst f1
    exact ⟨a, by decide⟩
  · subst f2
    exact ⟨a, by decide⟩
  · subst f3
    exact ⟨a, by decide⟩
  · exact absurd h char

/-- The Enter key is Enter under all modifiers. -/
lemma Mods.enter_key (md : Mods) : md.key 0x1C = .enter := by
  obtain ⟨ctrl, shift, caps, alt⟩ := md
  cases ctrl <;> cases shift <;> cases caps <;> rfl

/-- No key adds a newline to the line. -/
lemma Mods.edit_ne_newline {xs : List UInt8} (h : (md.key scancode).edit = .add xs) : 10 ∉ xs := by
  cases hk : md.key scancode with
  | type c =>
      rw [hk] at h
      obtain rfl := Edit.add.inj h
      exact fun mem => Mods.type_ne_newline hk (List.mem_singleton.mp mem).symm
  | tab =>
      rw [hk] at h
      obtain rfl := Edit.add.inj h
      decide
  | backspace =>
      rw [hk] at h
      cases h
  | clear =>
      rw [hk] at h
      cases h
  | _ =>
      rw [hk] at h
      obtain rfl := Edit.add.inj h
      exact List.not_mem_nil

end Keys

section Runs

variable {s : Kernel} {ed : Editor}

/-- One interrupt that is no switch. -/
lemma Shows.strike (h : Shows s ed) {e : KeyEvent}
    (switch : ¬ (ed.mods.altPressed = true ∧ e.scancode ∈ [0x3B, 0x3C, 0x3D])) :
    ∃ s', keyStep s e = some s' ∧ Shows s' (ed.strike e.scancode) := by
  obtain ⟨mods, text, pos, single⟩ := h
  obtain ⟨text', pos'⟩ := Line.text_press pos (s.kbd.mods.key e.scancode)
  refine ⟨s.press (s.kbd.mods.key e.scancode), ?_, ?_, ?_, ?_, ?_⟩
  · rw [keyStep, handleKeyboardIrq_eq]
    apply act_of_press
    intro t ht
    rw [mods] at ht
    exact switch (Mods.key_switch ht)
  · rw [mods_press, mods]
    rfl
  · rw [line_press, text', text, mods]
    rfl
  · rw [line_press]
    exact pos'
  · intro mem
    rcases Edit.mem_on mem with old | ⟨xs, hxs, new⟩
    · exact single old
    · exact Mods.edit_ne_newline hxs new

/-- A run of interrupts without Enter and switches edits the line as the editor does. -/
lemma Shows.runs (h : Shows s ed) {es : List KeyEvent}
    (edits : ed.Edits (es.map KeyEvent.scancode)) :
    ∃ s', Base.runs keyStep s es = some s' ∧
      Shows s' ((es.map KeyEvent.scancode).foldl Editor.strike ed) := by
  induction es generalizing s ed with
  | nil => exact ⟨s, rfl, h⟩
  | cons e es ih =>
      obtain ⟨⟨-, switch⟩, rest⟩ := edits
      obtain ⟨t, step, ht⟩ := h.strike switch
      obtain ⟨s', run, h'⟩ := ih ht rest
      exact ⟨s', by rw [runs_cons, step, Option.bind_some, run], h'⟩

/-- From an empty line. -/
lemma shows_empty (h : s.kbd.bufferPosition = 0) : Shows s ⟨s.kbd.mods, []⟩ := by
  have pos : s.line.pos = 0 := h
  refine ⟨rfl, ?_, by omega, List.not_mem_nil⟩
  rw [Line.text, pos]
  rfl

/-- Enter makes the editor's line wait. -/
lemma Shows.enter (h : Shows s ed) {e : KeyEvent} (enter : e.scancode = 0x1C) :
    ∃ s', keyStep s e = some s' ∧ Waiting s' ed.text := by
  obtain ⟨mods, text, pos, single⟩ := h
  have key : s.kbd.mods.key e.scancode = .enter := by rw [enter, Mods.enter_key]
  have line : (s.press .enter).line = s.line.put 10 := line_press s .enter
  have length : ed.text.length = s.line.pos := by rw [← text, Line.length_text]
  have terminal : (s.press .enter).term.current.terminalBuffer
      = Function.update s.line.terminal s.line.pos 10 := congrArg Line.terminal line
  refine ⟨s.press .enter, ?_, by omega, ?_, ?_, single, ?_⟩
  · rw [keyStep, handleKeyboardIrq_eq, key]
    rfl
  · rw [checkEnter_iff, line]
    exact Function.update_self ..
  · rw [length, terminal]
    exact (Line.text_put s.line 10).trans text
  · rw [length, terminal, Function.update_self]

end Runs

/-- **Line editing.** From an empty line, any interrupts without Enter and switches, then Enter and
a read: the read returns the reference editor's line and leaves both buffers empty. -/
theorem line_editing (s : Kernel) (es : List KeyEvent) (e : KeyEvent) (buf : Nat) (nbytes : Int)
    (empty : s.kbd.bufferPosition = 0)
    (edits : Editor.Edits ⟨s.kbd.mods, []⟩ (es.map KeyEvent.scancode)) (enter : e.scancode = 0x1C)
    (hbuf : buf ≠ 0) (low : 128 ≤ nbytes) (high : nbytes < 1024) :
    ∃ s₁ s₂ line, runs keyStep s (es ++ [e]) = some s₁ ∧
      s₁.terminalRead buf nbytes = some ((line.length : Int), line, s₂) ∧
      line = ((es.map KeyEvent.scancode).foldl Editor.strike ⟨s.kbd.mods, []⟩).text ∧
      s₂.kbd.bufferPosition = 0 ∧
      ∀ j < 128, s₂.kbd.keyboardBuffer j = 0 ∧ s₂.term.current.terminalBuffer j = 0 := by
  obtain ⟨s', run, shown⟩ := (shows_empty empty).runs edits
  obtain ⟨s₁, step, waiting⟩ := shown.enter enter
  have read := terminalRead_waiting waiting hbuf (by omega) high
  have clear := line_finishRead s₁
  refine ⟨s₁, s₁.finishRead, _, ?_, read, rfl, congrArg Line.pos clear, fun j hj => ⟨?_, ?_⟩⟩
  · rw [runs_append, run, Option.bind_some, runs_cons, step]
    rfl
  · have keyboard : s₁.finishRead.kbd.keyboardBuffer = Line.wipe s₁.line.keyboard :=
      congrArg Line.keyboard clear
    rw [keyboard, Line.wipe_of_lt hj]
  · have terminal : s₁.finishRead.term.current.terminalBuffer = Line.wipe s₁.line.terminal :=
      congrArg Line.terminal clear
    rw [terminal, Line.wipe_of_lt hj]

/-- Shift, h, Shift released, Tab and Backspace. -/
def sampleEdits : List KeyEvent :=
  [0x2A, 0x23, 0xAA, 0x0F, 0x0E].map fun scancode => ⟨sampleFrame, scancode⟩

/-- The line that is read is H and three blanks. -/
theorem line_editing_sample : ∃ s s₁ s₂, bootShell sampleFrame sampleBoot = some s ∧
    runs keyStep s (sampleEdits ++ [⟨sampleFrame, 0x1C⟩]) = some s₁ ∧
    s₁.terminalRead 0x08048000 128 = some (4, [72, 32, 32, 32], s₂) := by
  have facts : (bootShell sampleFrame sampleBoot).isSome = true := by decide +kernel
  obtain ⟨s, hs⟩ := Option.isSome_iff_exists.mp facts
  obtain ⟨kbd, -⟩ := kbd_bootShell hs
  have mods : s.kbd.mods = ⟨false, false, false, false⟩ := by rw [kbd]
  have edits : Editor.Edits ⟨s.kbd.mods, []⟩ (sampleEdits.map KeyEvent.scancode) := by
    rw [mods]
    decide
  obtain ⟨s₁, s₂, line, run, read, text, -⟩ := line_editing s sampleEdits ⟨sampleFrame, 0x1C⟩
    0x08048000 128 (by rw [kbd]) edits rfl (by decide) (by decide) (by decide)
  rw [mods] at text
  have line : line = [72, 32, 32, 32] := text.trans (by decide)
  subst line
  exact ⟨s, s₁, s₂, hs, run, read⟩

/-! ## Caps Lock -/

/-- A key of the character area, struck with Shift down or not. -/
structure Stroke where
  scancode : UInt8
  shift : Bool
  deriving DecidableEq

/-- The character of a stroke, with Caps Lock on or off. -/
def Stroke.char (caps : Bool) (k : Stroke) : UInt8 :=
  scancodeChar k.scancode (Mods.keyMode ⟨false, k.shift, caps, false⟩)

/-- The edit of a line of strokes that a key makes; Tab is four strokes of the space bar. -/
def strokeEdit (shift : Bool) (scancode : UInt8) : Edit Stroke :=
  if scancode ∈ [0x2A, 0x36, 0xAA, 0xB6] then .add []
  else if scancode = 0x0E then .dropLast
  else if scancode = 0x0F then .add (List.replicate 4 ⟨0x39, false⟩)
  else .add [⟨scancode, shift⟩]

/-- Whether Shift is down after a key. -/
def shiftAfter (shift : Bool) (scancode : UInt8) : Bool :=
  if scancode ∈ [0x2A, 0x36] then true
  else if scancode ∈ [0xAA, 0xB6] then false
  else shift

/-- The strokes left in the line after a sequence of keys. -/
def strokesLeft : Bool → List Stroke → List UInt8 → List Stroke
  | _, left, [] => left
  | shift, left, scancode :: rest =>
    strokesLeft (shiftAfter shift scancode) ((strokeEdit shift scancode).on 127 left) rest

/-- The keys of the character area except Enter, Ctrl and Alt, and the releases of Shift. -/
def CaseKey (scancode : UInt8) : Prop :=
  scancode ∈ [0xAA, 0xB6] ∨ scancode < 58 ∧ scancode ∉ [0x1C, 0x1D, 0x38]

/-- The letter in the other case; other characters are as they are. -/
def swapCase (c : UInt8) : UInt8 :=
  if 65 ≤ c ∧ c ≤ 90 then c + 32 else if 97 ≤ c ∧ c ≤ 122 then c - 32 else c

/-- The state with Caps Lock on or off. -/
def Kernel.withCaps (s : Kernel) (caps : Bool) : Kernel :=
  { s with kbd.mods.capslockState := caps }

/-- The same keys with Caps Lock on give a line of the same length, with the case of every letter
swapped and everything else the same. -/
def FlipsCase (s : Kernel) (es : List KeyEvent) : Prop :=
  ∃ on off, runs keyStep (s.withCaps true) es = some on ∧
    runs keyStep (s.withCaps false) es = some off ∧
    on.line.text.length = off.line.text.length ∧ on.line.text = off.line.text.map swapCase

section CapsLock

variable {md : Mods} {scancode : UInt8} {left : List Stroke}

/-- A character key types the character of its row. -/
lemma Mods.key_char (ctrl : md.ctrlPressed = false) (low : scancode < 58)
    (plain : scancode ∉ specialKeys) (enter : scancode ≠ 0x1C) :
    md.key scancode = .type (scancodeChar scancode md.keyMode) := by
  have above (n : UInt8) (hn : ¬ n < 58) : scancode ≠ n := by
    rintro rfl
    exact hn low
  simp only [specialKeys, List.mem_cons, List.not_mem_nil, or_false, not_or] at plain
  obtain ⟨backspace, tab, ctrlKey, shift, shift', alt⟩ := plain
  have newline : scancodeChar scancode md.keyMode ≠ 10 := by
    have table : ((List.range 58).all fun n => (List.range 4).all fun mode =>
        decide (scancodeChar (UInt8.ofNat n) mode = 10 → UInt8.ofNat n = 0x1C)) = true := by
      decide +kernel
    have row := List.all_eq_true.mp table scancode.toNat (List.mem_range.mpr low)
    have cell := List.all_eq_true.mp row md.keyMode (List.mem_range.mpr md.keyMode_lt)
    rw [UInt8.ofNat_toNat] at cell
    exact fun e => enter (of_decide_eq_true cell e)
  have noCtrl : ¬ (md.ctrlPressed = true ∧ (scancodeChar scancode md.keyMode = 76 ∨
      scancodeChar scancode md.keyMode = 108)) := by
    rw [ctrl]
    exact fun h => Bool.noConfusion h.1
  rw [Mods.key, if_neg (above _ (by decide)), if_neg (above _ (by decide)),
    if_neg (not_or.mpr ⟨shift, shift'⟩),
    if_neg (not_or.mpr ⟨above _ (by decide), above _ (by decide)⟩), if_neg alt,
    if_neg (above _ (by decide)), if_neg ctrlKey, if_neg (above _ (by decide)), if_neg backspace,
    if_neg tab, if_neg (above _ (by decide)), if_neg (above _ (by decide)),
    if_neg (above _ (by decide)), Mods.charKey, if_pos low]
  dsimp only
  rw [if_neg noCtrl, if_neg newline]

/-- The editor's line is that of the strokes' characters. -/
lemma strike_stroke (ctrl : md.ctrlPressed = false) (key : CaseKey scancode) :
    Editor.strike ⟨md, left.map (Stroke.char md.capslockState)⟩ scancode
      = ⟨{ md with shiftPressed := shiftAfter md.shiftPressed scancode },
          ((strokeEdit md.shiftPressed scancode).on 127 left).map
            (Stroke.char md.capslockState)⟩ := by
  rw [← Edit.on_map]
  obtain ⟨ctrlPressed, shift, caps, alt⟩ := md
  obtain rfl : ctrlPressed = false := ctrl
  by_cases shiftKey : scancode ∈ [0x2A, 0x36, 0xAA, 0xB6]
  · simp only [List.mem_cons, List.not_mem_nil, or_false] at shiftKey
    rcases shiftKey with rfl | rfl | rfl | rfl <;> rfl
  by_cases backspace : scancode = 0x0E
  · subst backspace
    rfl
  by_cases tab : scancode = 0x0F
  · subst tab
    cases caps <;> rfl
  -- the keys that type
  obtain ⟨low, keys⟩ := key.resolve_left fun release => shiftKey (by
    simp only [List.mem_cons, List.not_mem_nil, or_false] at release ⊢
    exact .inr (.inr release))
  simp only [List.mem_cons, List.not_mem_nil, or_false, not_or] at shiftKey keys
  obtain ⟨shift₁, shift₂, shift₃, shift₄⟩ := shiftKey
  obtain ⟨enter, ctrlKey, altKey⟩ := keys
  have plain : scancode ∉ specialKeys := by
    simp only [specialKeys, List.mem_cons, List.not_mem_nil, or_false, not_or]
    exact ⟨backspace, tab, ctrlKey, shift₁, shift₂, altKey⟩
  have typed : strokeEdit shift scancode = .add [⟨scancode, shift⟩] := by
    rw [strokeEdit, if_neg, if_neg backspace, if_neg tab]
    simp only [List.mem_cons, List.not_mem_nil, or_false, not_or]
    exact ⟨shift₁, shift₂, shift₃, shift₄⟩
  have same : shiftAfter shift scancode = shift := by
    rw [shiftAfter, if_neg, if_neg]
    · simp only [List.mem_cons, List.not_mem_nil, or_false, not_or]
      exact ⟨shift₃, shift₄⟩
    · simp only [List.mem_cons, List.not_mem_nil, or_false, not_or]
      exact ⟨shift₁, shift₂⟩
  dsimp only
  rw [Editor.strike, Mods.key_char rfl low plain enter, typed, same]
  rfl

/-- The same for a sequence of keys. -/
lemma foldl_strike (md : Mods) (left : List Stroke) (ctrl : md.ctrlPressed = false)
    {scancodes : List UInt8} (keys : ∀ k ∈ scancodes, CaseKey k) :
    (scancodes.foldl Editor.strike ⟨md, left.map (Stroke.char md.capslockState)⟩).text
      = (strokesLeft md.shiftPressed left scancodes).map (Stroke.char md.capslockState) := by
  induction scancodes generalizing md left with
  | nil => rfl
  | cons scancode rest ih =>
      obtain ⟨key, keys⟩ := List.forall_mem_cons.mp keys
      rw [List.foldl_cons, strike_stroke ctrl key, strokesLeft]
      exact ih { md with shiftPressed := shiftAfter md.shiftPressed scancode } _ ctrl keys

/-- None of the keys is Enter or a function key. -/
lemma edits_caseKeys (ed : Editor) {scancodes : List UInt8} (keys : ∀ k ∈ scancodes, CaseKey k) :
    ed.Edits scancodes := by
  induction scancodes generalizing ed with
  | nil => trivial
  | cons scancode rest ih =>
      obtain ⟨key, keys⟩ := List.forall_mem_cons.mp keys
      refine ⟨⟨?_, fun h => ?_⟩, ih _ keys⟩
      · rintro rfl
        exact absurd key (by rw [CaseKey]; decide)
      · obtain ⟨-, function⟩ := h
        simp only [List.mem_cons, List.not_mem_nil, or_false] at function
        rcases function with rfl | rfl | rfl
        all_goals exact absurd key (by rw [CaseKey]; decide)

/-- The cells of `scancode_map` on which Caps Lock flips the case. -/
lemma char_caps (k : Stroke) :
    k.char true = swapCase (k.char false) ↔ k ∉ [⟨0x30, false⟩, ⟨0x27, false⟩] := by
  have table : ((List.range 256).all fun n => [true, false].all fun shift => decide
      (Stroke.char true ⟨UInt8.ofNat n, shift⟩ = swapCase
        (Stroke.char false ⟨UInt8.ofNat n, shift⟩) ↔
        (⟨UInt8.ofNat n, shift⟩ : Stroke) ∉ [⟨0x30, false⟩, ⟨0x27, false⟩])) = true := by
    decide +kernel
  obtain ⟨scancode, shift⟩ := k
  have row := List.all_eq_true.mp table scancode.toNat (List.mem_range.mpr scancode.toNat_lt)
  have cell := List.all_eq_true.mp row shift (by cases shift <;> decide)
  rw [UInt8.ofNat_toNat] at cell
  exact of_decide_eq_true cell

/-- The line after a sequence of keys, with Caps Lock on or off. -/
lemma line_withCaps {s : Kernel} {es : List KeyEvent} (empty : s.kbd.bufferPosition = 0)
    (ctrl : s.kbd.mods.ctrlPressed = false) (keys : ∀ e ∈ es, CaseKey e.scancode) (caps : Bool) :
    ∃ s', runs keyStep (s.withCaps caps) es = some s' ∧ s'.line.text
      = (strokesLeft s.kbd.mods.shiftPressed [] (es.map KeyEvent.scancode)).map
          (Stroke.char caps) := by
  have keys' : ∀ k ∈ es.map KeyEvent.scancode, CaseKey k := List.forall_mem_map.mpr keys
  have start : Shows (s.withCaps caps) ⟨(s.withCaps caps).kbd.mods, []⟩ := shows_empty empty
  obtain ⟨s', run, shown⟩ := start.runs (edits_caseKeys _ keys')
  refine ⟨s', run, shown.text.trans ?_⟩
  exact foldl_strike (s.withCaps caps).kbd.mods [] ctrl keys'

end CapsLock

/-- **Caps Lock.** The same keys with Caps Lock on give the same line with the case of its letters
swapped exactly when neither b nor the semicolon, struck without Shift, is left in it. -/
theorem caps_flips (s : Kernel) (es : List KeyEvent) (empty : s.kbd.bufferPosition = 0)
    (ctrl : s.kbd.mods.ctrlPressed = false) (keys : ∀ e ∈ es, CaseKey e.scancode) :
    FlipsCase s es ↔ ∀ k ∈ strokesLeft s.kbd.mods.shiftPressed [] (es.map KeyEvent.scancode),
      k ∉ [⟨0x30, false⟩, ⟨0x27, false⟩] := by
  obtain ⟨on, runOn, textOn⟩ := line_withCaps empty ctrl keys true
  obtain ⟨off, runOff, textOff⟩ := line_withCaps empty ctrl keys false
  have flips : on.line.text = off.line.text.map swapCase ↔
      ∀ k ∈ strokesLeft s.kbd.mods.shiftPressed [] (es.map KeyEvent.scancode),
        k.char true = swapCase (k.char false) := by
    rw [textOn, textOff, List.map_map, List.map_inj_left]
    rfl
  simp only [char_caps] at flips
  constructor
  · rintro ⟨on', off', runOn', runOff', -, swapped⟩
    obtain rfl := Option.some.inj (runOn.symm.trans runOn')
    obtain rfl := Option.some.inj (runOff.symm.trans runOff')
    exact flips.mp swapped
  · intro right
    refine ⟨on, off, runOn, runOff, ?_, flips.mpr right⟩
    rw [textOn, textOff, List.length_map, List.length_map]

/-- The letters a and B, after a b that is rubbed out. -/
theorem caps_flips_sample : ∃ s, bootShell sampleFrame sampleBoot = some s ∧
    FlipsCase s ([0x30, 0x0E, 0x1E, 0x2A, 0x30].map fun scancode => ⟨sampleFrame, scancode⟩) := by
  have facts : (bootShell sampleFrame sampleBoot).isSome = true := by decide +kernel
  obtain ⟨s, hs⟩ := Option.isSome_iff_exists.mp facts
  obtain ⟨kbd, -⟩ := kbd_bootShell hs
  refine ⟨s, hs, (caps_flips s _ (by rw [kbd]) (by rw [kbd]) ?_).mpr ?_⟩
  · rw [List.forall_mem_map]
    simp only [CaseKey]
    exact List.all_iff_forall_prop.mp (by decide)
  · rw [kbd]
    decide

/-- The letter b with Caps Lock on is a V. -/
theorem not_always_caps_flips : ¬ ∀ (s : Kernel) (es : List KeyEvent), s.kbd.bufferPosition = 0 →
    s.kbd.mods.ctrlPressed = false → (∀ e ∈ es, CaseKey e.scancode) → FlipsCase s es := by
  intro claim
  have facts : (bootShell sampleFrame sampleBoot).isSome = true := by decide +kernel
  obtain ⟨s, hs⟩ := Option.isSome_iff_exists.mp facts
  obtain ⟨kbd, -⟩ := kbd_bootShell hs
  have empty : s.kbd.bufferPosition = 0 := by rw [kbd]
  have ctrl : s.kbd.mods.ctrlPressed = false := by rw [kbd]
  have keys : ∀ e ∈ [KeyEvent.mk sampleFrame 0x30], CaseKey e.scancode := by
    rw [List.forall_mem_singleton, CaseKey]
    decide
  obtain ⟨on, off, runOn, runOff, -, swapped⟩ := claim s _ empty ctrl keys
  obtain ⟨on', runOn', textOn⟩ := line_withCaps empty ctrl keys true
  obtain ⟨off', runOff', textOff⟩ := line_withCaps empty ctrl keys false
  obtain rfl := Option.some.inj (runOn.symm.trans runOn')
  obtain rfl := Option.some.inj (runOff.symm.trans runOff')
  rw [textOn, textOff, kbd] at swapped
  exact absurd swapped (by decide)

end Kernel391
