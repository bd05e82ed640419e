import Kernel391.Model.Memory

/-!
# The memory routines

Each listing of `lib.c` ends with the memory its call is for, wherever the pointers stand: `memset`
and `memcpy` go byte by byte up to a double word, then with `rep`, then byte by byte again, and the
lemmas follow the three loops. What is left of the processor is `Preserved`; the string registers
and `es` are not among it.
-/

namespace Kernel391
open Base

variable {o : Outside Empty} {Q : Cpu → Prop} {c c' c₀ : Cpu} {a v b : BitVec 32} {n i : Nat}

/-- What the routines keep: `ebx`, `esp`, `ebp` and `ds`. They load `esi`, `edi` and `es` and do not
restore them. -/
structure Preserved (c₀ c : Cpu) : Prop where
  ebx : c.reg .ebx = c₀.reg .ebx
  esp : c.reg .esp = c₀.reg .esp
  ebp : c.reg .ebp = c₀.reg .ebp
  ds : c.ds = c₀.ds

/-- A counter that is lowered. -/
lemma sub_one_of_eq {v : BitVec 32} {k : Nat} (h : v = BitVec.ofNat 32 (k + 1)) :
    v - 1 = BitVec.ofNat 32 k := by
  rw [h, BitVec.ofNat_add]
  bv_omega

/-- A pointer that is advanced. -/
lemma add_one_of_eq {v : BitVec 32} (h : v = a + BitVec.ofNat 32 i) :
    v + 1 = a + BitVec.ofNat 32 (i + 1) := by
  rw [h, ← add_ofNat_add]
  rfl

/-- The test of a count that has run out. -/
lemma count_zero {v : BitVec 32} (h : v = BitVec.ofNat 32 0) : (v &&& v == 0) = true := by
  rw [h]
  rfl

/-- The test of a count that has not. -/
lemma count_succ {v : BitVec 32} {k : Nat} (h : v = BitVec.ofNat 32 (k + 1)) (lt : k + 1 < 2 ^ 32) :
    ¬ (v &&& v == 0) = true := by
  rw [BitVec.and_self, beq_iff_eq, h]
  bv_omega

/-- `es` takes the value of `ds` by way of the low half of a register. -/
lemma low_half (w : BitVec 32) (d : BitVec 16) :
    (BitVec.ofNat 32 (w.toNat / 2 ^ 16 * 2 ^ 16 + d.toNat)).setWidth 16 = d := by
  have hd := d.isLt
  apply BitVec.eq_of_toNat_eq
  rw [BitVec.toNat_setWidth, BitVec.toNat_ofNat]
  omega

/-- The number of whole words in a count. -/
lemma words_of_eq {v : BitVec 32} {k : Nat} (h : v = BitVec.ofNat 32 k) (lt : k < 2 ^ 32) :
    (v >>> 2).toNat = k / 4 := by
  rw [h, BitVec.toNat_ushiftRight, BitVec.toNat_ofNat, Nat.mod_eq_of_lt lt,
    Nat.shiftRight_eq_div_pow]

/-- The bytes behind the last whole word. -/
lemma rest_of_eq {v : BitVec 32} {k : Nat} (h : v = BitVec.ofNat 32 k) (lt : k < 2 ^ 32) :
    0x3 &&& v = BitVec.ofNat 32 (k % 4) := by
  apply BitVec.eq_of_toNat_eq
  rw [h, BitVec.toNat_and, BitVec.toNat_ofNat, BitVec.toNat_ofNat, Nat.mod_eq_of_lt lt,
    Nat.and_comm]
  show k &&& (2 ^ 2 - 1) = _
  rw [Nat.and_two_pow_sub_one_eq_mod]
  omega

/-! ## `memset` -/

/-- Between the instructions of `memset`: the first `i` bytes are filled. -/
structure FilledTo (c₀ : Cpu) (a v : BitVec 32) (i : Nat) (c : Cpu) : Prop where
  mem : c.mem = fill c₀.mem a i fun _ => byteOf v 0
  edi : c.reg .edi = a + BitVec.ofNat 32 i
  eax : c.reg .eax = v
  kept : Preserved c₀ c

/-- At the head of a loop of `memset` with `k` of the `n` bytes left, counted in `r`. -/
def FillLeft (c₀ : Cpu) (a v : BitVec 32) (n : Nat) (r : Reg) (k : Nat) (c : Cpu) : Prop :=
  ∃ i, i + k = n ∧ FilledTo c₀ a v i c ∧ c.reg r = BitVec.ofNat 32 k

/-- The word has the same byte everywhere. -/
def Uniform (v : BitVec 32) : Prop := ∀ j < 4, byteOf v j = byteOf v 0

/-- A store of some of the bytes. -/
lemma FilledTo.store (uniform : Uniform v) (h : FilledTo c₀ a v i c) {k : Nat} (hk : k ≤ 4)
    (room : i + k ≤ 2 ^ 32) :
    storeBytes c.mem (c.reg .edi) k (c.reg .eax) = fill c₀.mem a (i + k) fun _ => byteOf v 0 := by
  rw [h.mem, h.edi, h.eax, ← fill_const_append _ room, storeBytes_eq]
  exact fill_congr fun j hj => uniform j (by omega)

/-- The loop at `.memset_bottom`. -/
lemma memset_bottom (uniform : Uniform v) (small : n < 2 ^ 32)
    (done : ∀ c', FilledTo c₀ a v n c' → Q c') {k : Nat} (h : FillLeft c₀ a v n .edx k c) :
    Finishes o memset Q (memset.drop 18) c := by
  refine Finishes.counted (P := FillLeft c₀ a v n .edx) (fun c h => ?_)
    (fun k c h again => ?_) k c h
  · obtain ⟨i, rfl, h, edx⟩ := h
    refine .next rfl rfl rfl (.jump (if_pos (count_zero edx)) rfl (.done (done _ ?_)))
    exact ⟨h.mem, h.edi, h.eax, h.kept.ebx, h.kept.esp, h.kept.ebp, h.kept.ds⟩
  · obtain ⟨i, hi, h, edx⟩ := h
    have go := count_succ edx (by omega)
    have stored := h.store uniform (k := 1) (by omega) (by omega)
    refine .next rfl rfl rfl (.next (if_neg go) rfl rfl ?_)
    refine .next rfl rfl rfl (.next rfl rfl rfl (.next rfl rfl rfl (.jump rfl rfl (again _ ?_))))
    exact ⟨i + 1, by omega, ⟨stored, add_one_of_eq h.edi, h.eax, h.kept.ebx, h.kept.esp, h.kept.ebp,
      h.kept.ds⟩, sub_one_of_eq edx⟩

/-- Whole words are stored. -/
lemma FilledTo.words (uniform : Uniform v) (h : FilledTo c₀ a v i c) {k : Nat}
    (room : i + k ≤ 2 ^ 32) :
    fill c.mem (c.reg .edi) k (fun j => byteOf (c.reg .eax) (j % 4)) =
      fill c₀.mem a (i + k) fun _ => byteOf v 0 := by
  rw [h.mem, h.edi, h.eax, ← fill_const_append _ room]
  exact fill_congr fun j _ => uniform _ (Nat.mod_lt _ (by decide))

/-- From `.memset_aligned` on. -/
lemma memset_aligned (uniform : Uniform v) (small : n < 2 ^ 32)
    (done : ∀ c', FilledTo c₀ a v n c' → Q c') {k : Nat} (h : FillLeft c₀ a v n .ecx k c) :
    Finishes o memset Q (memset.drop 10) c := by
  obtain ⟨i, hi, h, ecx⟩ := h
  have whole := words_of_eq ecx (by omega)
  have flat := low_half (c.reg .edx) c.ds
  refine .next rfl rfl rfl (.next rfl rfl rfl (.next rfl rfl rfl (.next rfl rfl rfl ?_)))
  refine .next rfl rfl rfl (.next rfl rfl rfl (.next rfl rfl (rep_stos (.inr rfl) rfl flat) ?_))
  refine .next rfl rfl rfl (memset_bottom uniform small done (k := k % 4) ?_)
  refine ⟨i + 4 * (k / 4), by omega, ⟨?_, ?_, h.eax, h.kept.ebx, h.kept.esp, h.kept.ebp, h.kept.ds⟩,
    rest_of_eq ecx (by omega)⟩
  · show fill c.mem (c.reg .edi) (4 * (c.reg .ecx >>> 2).toNat)
      (fun j => byteOf (c.reg .eax) (j % 4)) = _
    rw [whole]
    exact h.words uniform (by omega)
  · show c.reg .edi + BitVec.ofNat 32 (4 * (c.reg .ecx >>> 2).toNat) = _
    rw [whole, h.edi, add_ofNat_add]

/-- `memset` fills, whatever the alignment. -/
lemma finishes_memset (uniform : Uniform v) (small : n < 2 ^ 32)
    (done : ∀ c', FilledTo c₀ a v n c' → Q c') {k : Nat} (h : FillLeft c₀ a v n .ecx k c) :
    Finishes o memset Q memset c := by
  refine .next rfl rfl rfl ?_
  refine Finishes.counted (P := FillLeft c₀ a v n .ecx) (fun c h => ?_)
    (fun k c h again => ?_) k c h
  · obtain ⟨i, rfl, h, ecx⟩ := h
    refine .next rfl rfl rfl (.jump (if_pos (count_zero ecx)) rfl (.done (done _ ?_)))
    exact ⟨h.mem, h.edi, h.eax, h.kept.ebx, h.kept.esp, h.kept.ebp, h.kept.ds⟩
  · obtain ⟨i, hi, h, ecx⟩ := h
    have go := count_succ ecx (by omega)
    refine .next rfl rfl rfl (.next (if_neg go) rfl rfl (.next rfl rfl rfl ?_))
    by_cases aligned : (0x3 &&& c.reg .edi == 0) = true
    · refine .jump (if_pos aligned) rfl (memset_aligned uniform small done (k := k + 1) ?_)
      exact ⟨i, hi, ⟨h.mem, h.edi, h.eax, h.kept.ebx, h.kept.esp, h.kept.ebp, h.kept.ds⟩, ecx⟩
    · have stored := h.store uniform (k := 1) (by omega) (by omega)
      refine .next (if_neg aligned) rfl rfl ?_
      refine .next rfl rfl rfl (.next rfl rfl rfl (.next rfl rfl rfl (.jump rfl rfl (again _ ?_))))
      exact ⟨i + 1, by omega,
        ⟨stored, add_one_of_eq h.edi, h.eax, h.kept.ebx, h.kept.esp, h.kept.ebp, h.kept.ds⟩,
        sub_one_of_eq ecx⟩

/-- `memset_word` and `memset_dword` store the low bytes of `c` over and over. -/
lemma finishes_memsetWord
    (done : ∀ c', c'.mem = fill c.mem (c.reg .edi) (2 * (c.reg .ecx).toNat)
      (fun j => byteOf (c.reg .eax) (j % 2)) → Preserved c c' → Q c') :
    Finishes o memsetWord Q memsetWord c := by
  have flat := low_half (c.reg .edx) c.ds
  refine .next rfl rfl rfl (.next rfl rfl rfl (.next rfl rfl rfl ?_))
  exact .next rfl rfl (rep_stos (.inl rfl) rfl flat) (.done (done _ rfl ⟨rfl, rfl, rfl, rfl⟩))

/-- `memset_dword` ends and fills. -/
lemma finishes_memsetDword
    (done : ∀ c', c'.mem = fill c.mem (c.reg .edi) (4 * (c.reg .ecx).toNat)
      (fun j => byteOf (c.reg .eax) (j % 4)) → Preserved c c' → Q c') :
    Finishes o memsetDword Q memsetDword c := by
  have flat := low_half (c.reg .edx) c.ds
  refine .next rfl rfl rfl (.next rfl rfl rfl (.next rfl rfl rfl ?_))
  exact .next rfl rfl (rep_stos (.inr rfl) rfl flat) (.done (done _ rfl ⟨rfl, rfl, rfl, rfl⟩))

/-! ## `memcpy` -/

/-- Between the instructions of `memcpy`: the first `i` bytes are copied. -/
structure CopiedTo (c₀ : Cpu) (dst src : BitVec 32) (i : Nat) (c : Cpu) : Prop where
  mem : c.mem = copyRange c₀.mem dst src 0 i
  edi : c.reg .edi = dst + BitVec.ofNat 32 i
  esi : c.reg .esi = src + BitVec.ofNat 32 i
  kept : Preserved c₀ c

/-- At the head of a loop of `memcpy` with `k` of the `n` bytes left, counted in `r`. -/
def CopyLeft (c₀ : Cpu) (dst src : BitVec 32) (n : Nat) (r : Reg) (k : Nat) (c : Cpu) : Prop :=
  ∃ i, i + k = n ∧ CopiedTo c₀ dst src i c ∧ c.reg r = BitVec.ofNat 32 k

/-- A byte that goes through the low byte of a register. -/
lemma store_loaded (m : BitVec 32 → UInt8) (dst src w : BitVec 32) :
    storeBytes m dst 1 (BitVec.ofNat 32 (w.toNat / 2 ^ 8 * 2 ^ 8 + (m src).toNat)) =
      copyBytes m dst src 1 := by
  funext x
  rw [storeBytes, copyBytes]
  split_ifs with here
  · have first : (x - dst).toNat = 0 := by omega
    have at_dst : x - dst = 0#32 := BitVec.eq_of_toNat_eq first
    have lt := (m src).toNat_lt
    have hw := w.isLt
    rw [first, at_dst, BitVec.add_zero, byteOf, BitVec.toNat_ofNat]
    apply UInt8.toNat_inj.mp
    rw [UInt8.toNat_ofNat']
    omega
  · rfl

variable {dst src : BitVec 32}

/-- The next block is copied. -/
lemma CopiedTo.copy (safe : UpSafe dst src n) (small : n < 2 ^ 32) (h : CopiedTo c₀ dst src i c)
    {k : Nat} (room : i + k ≤ n) :
    copyBytes c.mem (c.reg .edi) (c.reg .esi) k = copyRange c₀.mem dst src 0 (i + k) := by
  rw [h.mem, h.edi, h.esi]
  exact copyRange_up (safe.mono room) (by omega)

/-- The loop at `.memcpy_bottom`. -/
lemma memcpy_bottom (safe : UpSafe dst src n) (small : n < 2 ^ 32)
    (done : ∀ c', CopiedTo c₀ dst src n c' → Q c') {k : Nat} (h : CopyLeft c₀ dst src n .edx k c) :
    Finishes o memcpy Q (memcpy.drop 20) c := by
  refine Finishes.counted (P := CopyLeft c₀ dst src n .edx) (fun c h => ?_)
    (fun k c h again => ?_) k c h
  · obtain ⟨i, rfl, h, edx⟩ := h
    refine .next rfl rfl rfl (.jump (if_pos (count_zero edx)) rfl (.done (done _ ?_)))
    exact ⟨h.mem, h.edi, h.esi, h.kept.ebx, h.kept.esp, h.kept.ebp, h.kept.ds⟩
  · obtain ⟨i, hi, h, edx⟩ := h
    have go := count_succ edx (by omega)
    have byte := (store_loaded c.mem (c.reg .edi) (c.reg .esi) (c.reg .eax)).trans
      (h.copy safe small (k := 1) (by omega))
    refine .next rfl rfl rfl (.next (if_neg go) rfl rfl (.next rfl rfl rfl (.next rfl rfl rfl ?_)))
    refine .next rfl rfl rfl (.next rfl rfl rfl (.next rfl rfl rfl (.jump rfl rfl (again _ ?_))))
    exact ⟨i + 1, by omega, ⟨byte, add_one_of_eq h.edi, add_one_of_eq h.esi, h.kept.ebx, h.kept.esp,
      h.kept.ebp, h.kept.ds⟩, sub_one_of_eq edx⟩

/-- From `.memcpy_aligned` on. -/
lemma memcpy_aligned (safe : UpSafe dst src n) (small : n < 2 ^ 32)
    (done : ∀ c', CopiedTo c₀ dst src n c' → Q c') {k : Nat} (h : CopyLeft c₀ dst src n .ecx k c) :
    Finishes o memcpy Q (memcpy.drop 12) c := by
  obtain ⟨i, hi, h, ecx⟩ := h
  have whole := words_of_eq ecx (by omega)
  have flat := low_half (c.reg .edx) c.ds
  have apart : UpSafe (c.reg .edi) (c.reg .esi) (4 * (c.reg .ecx >>> 2).toNat) := by
    rw [whole, h.edi, h.esi]
    exact (safe.mono (by omega)).shift _
  have room : 4 * (c.reg .ecx >>> 2).toNat ≤ 2 ^ 32 := by omega
  refine .next rfl rfl rfl (.next rfl rfl rfl (.next rfl rfl rfl (.next rfl rfl rfl ?_)))
  refine .next rfl rfl rfl (.next rfl rfl rfl (.next rfl rfl (rep_movs_up rfl flat apart room) ?_))
  refine .next rfl rfl rfl (memcpy_bottom safe small done (k := k % 4) ?_)
  refine ⟨i + 4 * (k / 4), by omega, ⟨?_, ?_, ?_, h.kept.ebx, h.kept.esp, h.kept.ebp, h.kept.ds⟩,
    rest_of_eq ecx (by omega)⟩
  · show copyRange c.mem (c.reg .edi) (c.reg .esi) 0 (4 * (c.reg .ecx >>> 2).toNat) = _
    rw [whole, ← copyBytes_eq]
    exact h.copy safe small (by omega)
  · show c.reg .edi + BitVec.ofNat 32 (4 * (c.reg .ecx >>> 2).toNat) = _
    rw [whole, h.edi, add_ofNat_add]
  · show c.reg .esi + BitVec.ofNat 32 (4 * (c.reg .ecx >>> 2).toNat) = _
    rw [whole, h.esi, add_ofNat_add]

/-- `memcpy` copies, whatever the alignment. -/
lemma finishes_memcpy (safe : UpSafe dst src n) (small : n < 2 ^ 32)
    (done : ∀ c', CopiedTo c₀ dst src n c' → Q c') {k : Nat} (h : CopyLeft c₀ dst src n .ecx k c) :
    Finishes o memcpy Q memcpy c := by
  refine .next rfl rfl rfl ?_
  refine Finishes.counted (P := CopyLeft c₀ dst src n .ecx) (fun c h => ?_)
    (fun k c h again => ?_) k c h
  · obtain ⟨i, rfl, h, ecx⟩ := h
    refine .next rfl rfl rfl (.jump (if_pos (count_zero ecx)) rfl (.done (done _ ?_)))
    exact ⟨h.mem, h.edi, h.esi, h.kept.ebx, h.kept.esp, h.kept.ebp, h.kept.ds⟩
  · obtain ⟨i, hi, h, ecx⟩ := h
    have go := count_succ ecx (by omega)
    refine .next rfl rfl rfl (.next (if_neg go) rfl rfl (.next rfl rfl rfl ?_))
    by_cases aligned : (0x3 &&& c.reg .edi == 0) = true
    · refine .jump (if_pos aligned) rfl (memcpy_aligned safe small done (k := k + 1) ?_)
      exact ⟨i, hi, ⟨h.mem, h.edi, h.esi, h.kept.ebx, h.kept.esp, h.kept.ebp, h.kept.ds⟩, ecx⟩
    · have byte := (store_loaded c.mem (c.reg .edi) (c.reg .esi) (c.reg .eax)).trans
        (h.copy safe small (k := 1) (by omega))
      refine .next (if_neg aligned) rfl rfl (.next rfl rfl rfl (.next rfl rfl rfl ?_))
      refine .next rfl rfl rfl (.next rfl rfl rfl (.next rfl rfl rfl (.jump rfl rfl (again _ ?_))))
      exact ⟨i + 1, by omega,
        ⟨byte, add_one_of_eq h.edi, add_one_of_eq h.esi, h.kept.ebx, h.kept.esp, h.kept.ebp,
          h.kept.ds⟩,
        sub_one_of_eq ecx⟩

/-! ## `memmove` -/

/-- `memmove` moves, whichever way the ranges overlap, and comes back with the direction flag set
when the destination is the higher one. -/
lemma finishes_memmove (hdst : (c.reg .edi).toNat + (c.reg .ecx).toNat ≤ 2 ^ 32)
    (hsrc : (c.reg .esi).toNat + (c.reg .ecx).toNat ≤ 2 ^ 32)
    (done : ∀ c', c'.mem = copyRange c.mem (c.reg .edi) (c.reg .esi) 0 (c.reg .ecx).toNat →
      c'.flags.direction = (c.reg .esi).ult (c.reg .edi) → Preserved c c' → Q c') :
    Finishes o memmove Q memmove c := by
  have flat := low_half (c.reg .edx) c.ds
  refine .next rfl rfl rfl (.next rfl rfl rfl (.next rfl rfl rfl (.next rfl rfl rfl ?_)))
  cases above : (c.reg .esi).ult (c.reg .edi) with
  | false =>
    have le : (c.reg .edi).toNat ≤ (c.reg .esi).toNat := by
      rw [BitVec.ult, decide_eq_false_iff_not] at above
      omega
    have one : 1 * (c.reg .ecx).toNat = (c.reg .ecx).toNat := Nat.one_mul _
    have safe : UpSafe (c.reg .edi) (c.reg .esi) (1 * (c.reg .ecx).toNat) := by
      rw [one]
      exact upSafe_of_le le hsrc
    have room : 1 * (c.reg .ecx).toNat ≤ 2 ^ 32 := by omega
    rw [above] at done
    have stay : ¬ ((c.reg .esi).ult (c.reg .edi)) = true := by simp [above]
    refine .jump (if_neg stay) rfl ?_
    refine .next rfl rfl (rep_movs_up rfl flat safe room)
      (.done (done _ ?_ rfl ⟨rfl, rfl, rfl, rfl⟩))
    show copyRange c.mem (c.reg .edi) (c.reg .esi) 0 (1 * (c.reg .ecx).toNat) = _
    rw [one]
  | true =>
    have lt : (c.reg .esi).toNat < (c.reg .edi).toNat := by
      rw [BitVec.ult, decide_eq_true_iff] at above
      exact above
    have safe : DownSafe (c.reg .edi) (c.reg .esi) (c.reg .ecx).toNat :=
      upSafe_of_le (Nat.le_of_lt lt) hdst
    have last (v : BitVec 32) : -1 + v + c.reg .ecx = v + c.reg .ecx - 1 := by bv_omega
    rw [above] at done
    refine .next (if_pos above) rfl rfl ?_
    refine .next rfl rfl rfl (.next rfl rfl rfl (.next rfl rfl rfl (.next rfl rfl rfl ?_)))
    refine .next rfl rfl (rep_movsb_down rfl flat (last (c.reg .edi))
      (last (c.reg .esi)) safe) (.done ?_)
    exact done _ rfl rfl ⟨rfl, rfl, rfl, rfl⟩

end Kernel391
