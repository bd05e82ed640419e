import Mathlib.Data.List.Infix
import Kernel391.Base.Lines
import Kernel391.User.Showing

/-!
# The search of a file

`do_one_file` of `grep`: whatever the bytes of a file are, its search stays in its arrays and ends.
For a text of lines that fit the buffer it prints the lines that hold the pattern, each after the
name of the file (`ends_doOneFile`). Where a line is left over at the end of the buffer it is moved
to the start, so what is left of the buffer and what is left of the file make up what is still to be
searched.
-/

namespace Kernel391.User
open Base

/-- What is printed of a line: all of it, after the file's name, when it holds the pattern. -/
def hit (pattern fname line : List UInt8) : List UInt8 :=
  if pattern ≠ [] ∧ pattern <:+: line then fname ++ [58] ++ line ++ [10] else []

/-- What is printed of a text. -/
def hits (pattern fname text : List UInt8) : List UInt8 := onLines 10 (hit pattern fname) text

/-- A text without NUL whose lines fit the buffer. -/
structure Searchable (text : List UInt8) : Prop where
  nonzero : ∀ b ∈ text, b ≠ 0
  lines : LinesWithin 10 bufsize text

section Strings

variable {pattern pre line post junk buf : List UInt8} {n src dst : Nat}

/-- The element between two lists. -/
lemma getElem?_middle (pre : List UInt8) (b : UInt8) (post : List UInt8) :
    (pre ++ b :: post)[pre.length]? = some b := by
  rw [List.getElem?_append_right (Nat.le_refl _), Nat.sub_self]
  rfl

/-- Another element in the same place. -/
lemma length_middle (pre : List UInt8) (b c : UInt8) (post : List UInt8) :
    (pre ++ b :: post).length = (pre ++ c :: post).length := by
  rw [List.length_append, List.length_append]
  rfl

/-- Comparing as many bytes as the pattern has. -/
lemma strncmp_prefix (nonzero : ∀ b ∈ pattern, b ≠ 0) (line post junk : List UInt8) :
    ∃ r, ece391Strncmp (line ++ 0 :: post) (pattern ++ 0 :: junk) pattern.length = some r ∧
      (r = 0 ↔ pattern <+: line) := by
  induction pattern generalizing line with
  | nil => exact ⟨0, by rw [List.length_nil, ece391Strncmp], iff_of_true rfl List.nil_prefix⟩
  | cons b pattern ih =>
    have ne := nonzero b List.mem_cons_self
    have differ {c : UInt8} (h : c ≠ b) : (c.toNat : Int) - b.toNat ≠ 0 := by
      intro zero
      exact h (UInt8.toNat_inj.mp (by omega))
    cases line with
    | nil =>
      refine ⟨((0 : UInt8).toNat : Int) - b.toNat, if_neg ne.symm, iff_of_false (differ ne.symm) ?_⟩
      exact fun h => List.cons_ne_nil _ _ (List.prefix_nil.mp h)
    | cons c line =>
      rw [List.cons_append, List.cons_append, List.length_cons, ece391Strncmp,
        List.cons_prefix_cons]
      by_cases same : c = b
      · rw [if_pos same]
        cases pattern with
        | nil => exact ⟨0, if_pos (.inr rfl), iff_of_true rfl ⟨same.symm, List.nil_prefix⟩⟩
        | cons d pattern =>
          obtain ⟨r, run, spec⟩ := ih (fun e he => nonzero e (List.mem_cons_of_mem b he)) line
          refine ⟨r, (if_neg ?_).trans run, spec.trans (iff_and_self.mpr fun _ => same.symm)⟩
          rw [same, not_or]
          exact ⟨ne, Nat.succ_ne_zero _⟩
      · rw [if_neg same]
        exact ⟨_, rfl, iff_of_false (differ same) fun h => same h.1.symm⟩

/-- The places of a line are searched up to the first that has the pattern. -/
lemma searchLine_spec (nonzero : ∀ b ∈ pattern, b ≠ 0) (junk pre line post : List UInt8) :
    ∃ found, searchLine (pattern ++ 0 :: junk) pattern.length
      (pre ++ line ++ 0 :: post) line.length pre.length
      = some found ∧ ((∀ b ∈ line, b ≠ 0) → (found ↔ pattern ≠ [] ∧ pattern <:+: line)) := by
  induction line generalizing pre with
  | nil =>
    refine ⟨false, rfl, fun _ => iff_of_false Bool.false_ne_true ?_⟩
    exact fun h => h.1 (List.infix_nil.mp h.2)
  | cons b line ih =>
    obtain ⟨later, run, spec⟩ := ih (pre ++ [b])
    rw [List.append_assoc pre [b], List.singleton_append, List.length_append,
      List.length_singleton] at run
    have place : (pre ++ b :: line ++ 0 :: post)[pre.length]? = some b := by
      rw [List.append_assoc]
      exact getElem?_middle ..
    have drop : (pre ++ b :: line ++ 0 :: post).drop pre.length = b :: line ++ 0 :: post := by
      rw [List.append_assoc, List.drop_left]
    obtain ⟨r, compare, equal⟩ := strncmp_prefix nonzero (b :: line) post junk
    have first : (pattern ++ 0 :: junk)[0]? = some (pattern.headD 0) := by cases pattern <;> rfl
    rw [List.length_cons, searchLine, first, place]
    dsimp only
    rw [drop, compare]
    dsimp only
    by_cases head : pattern.headD 0 = b
    · rw [if_pos head]
      by_cases here : r = 0
      · refine ⟨true, if_pos here, fun plain => iff_of_true rfl ⟨?_, (equal.mp here).isInfix⟩⟩
        rintro rfl
        exact plain b List.mem_cons_self head.symm
      · refine ⟨later, (if_neg here).trans run, fun plain => ?_⟩
        rw [spec fun c hc => plain c (List.mem_cons_of_mem b hc), List.infix_cons_iff]
        exact and_congr_right fun _ => (or_iff_right fun h => here (equal.mpr h)).symm
    · rw [if_neg head]
      refine ⟨later, run, fun plain => ?_⟩
      rw [spec fun c hc => plain c (List.mem_cons_of_mem b hc), List.infix_cons_iff]
      refine and_congr_right fun ne => (or_iff_right fun h => head ?_).symm
      cases pattern with
      | nil => exact absurd rfl ne
      | cons a pattern => exact (List.cons_prefix_cons.mp h).1

/-- The bytes of a line are passed over. -/
lemma findEnd_line (free : 10 ∉ line) (n : Nat) (pre : List UInt8) :
    findEnd (pre ++ line ++ post) (line.length + n) pre.length
      = findEnd (pre ++ line ++ post) n (pre.length + line.length) := by
  induction line generalizing pre with
  | nil => rw [List.length_nil, Nat.zero_add, Nat.add_zero]
  | cons b line ih =>
    have rest := ih (fun h => free (List.mem_cons_of_mem b h)) (pre ++ [b])
    rw [List.append_assoc pre [b], List.singleton_append, List.length_append,
      List.length_singleton] at rest
    have place : (pre ++ b :: line ++ post)[pre.length]? = some b := by
      rw [List.append_assoc]
      exact getElem?_middle ..
    have other : b ≠ 10 := fun h => free (h ▸ List.mem_cons_self)
    rw [List.length_cons, show line.length + 1 + n = line.length + n + 1 by omega, findEnd, place]
    dsimp only
    rw [if_pos other, rest]
    congr 1
    omega

/-- The scan for the end of a line stops at the newline. -/
lemma findEnd_newline (free : 10 ∉ line) (n : Nat) :
    findEnd (pre ++ line ++ 10 :: post) (line.length + (n + 1)) pre.length
      = some (pre.length + line.length) := by
  rw [findEnd_line free, findEnd, ← List.length_append, getElem?_middle]
  rfl

/-- `ece391_strcpy` to a place further down in the same array. -/
lemma strcpy_down {text : List UInt8} (nonzero : ∀ b ∈ text, b ≠ 0)
    (here : buf.drop src = text ++ 0 :: post) (down : dst < src) (enough : text.length < n) :
    ece391Strcpy n buf dst src = some (storeAt buf dst (text ++ [0])) := by
  induction text generalizing buf src dst n with
  | nil =>
    obtain ⟨n, rfl⟩ := Nat.exists_eq_succ_of_ne_zero (Nat.ne_of_gt enough)
    have zero : buf[src]? = some 0 := by
      rw [← Nat.add_zero src, ← List.getElem?_drop, here]
      rfl
    have inside := (List.getElem?_eq_some_iff.mp zero).1
    rw [ece391Strcpy, zero]
    dsimp only
    rw [if_pos rfl, List.set_eq_take_append_cons_drop, if_pos (by omega), storeAt,
      List.append_assoc]
    rfl
  | cons b text ih =>
    obtain ⟨n, rfl⟩ := Nat.exists_eq_succ_of_ne_zero (show n ≠ 0 by omega)
    have first : buf[src]? = some b := by
      rw [← Nat.add_zero src, ← List.getElem?_drop, here]
      rfl
    have inside := (List.getElem?_eq_some_iff.mp first).1
    have next : (buf.set dst b).drop (src + 1) = text ++ 0 :: post := by
      rw [List.drop_set_of_lt (by omega), ← List.drop_drop, here]
      rfl
    rw [List.length_cons] at enough
    rw [ece391Strcpy, first]
    dsimp only
    rw [if_neg (nonzero b List.mem_cons_self),
      ih (fun c hc => nonzero c (List.mem_cons_of_mem b hc)) next (by omega) (by omega)]
    have length : (b :: text ++ [0]).length = 1 + (text ++ [0]).length := by
      rw [List.cons_append, List.length_cons, Nat.add_comm]
    have start : (buf.set dst b).take (dst + 1) = buf.take dst ++ [b] := by
      rw [List.take_add_one, List.take_set_of_le (Nat.le_refl _), List.getElem?_set_self (by omega)]
      rfl
    rw [storeAt, storeAt, start, List.drop_set_of_lt (by omega), length, Nat.add_assoc]
    simp only [List.append_assoc, List.cons_append, List.nil_append]

/-- A string ends at its first NUL. -/
lemma nul_split (line post : List UInt8) : ∃ text junk, line ++ 0 :: post = text ++ 0 :: junk ∧
    (∀ b ∈ text, b ≠ 0) ∧ text.length ≤ line.length ∧ ((∀ b ∈ line, b ≠ 0) → text = line) := by
  rcases line_or_more 0 line with plain | ⟨text, rest, rfl, plain⟩
  · exact ⟨line, post, rfl, fun b hb zero => plain (zero ▸ hb), Nat.le_refl _, fun _ => rfl⟩
  · refine ⟨text, rest ++ 0 :: post, List.append_assoc .., fun b hb zero => plain (zero ▸ hb), ?_,
      fun all => ?_⟩
    · rw [List.length_append]
      omega
    · exact absurd rfl (all 0 (List.mem_append_right _ List.mem_cons_self))

/-- No newline comes to be where there was none. -/
lemma guard_storeAt {j k : Nat} (inside : k < buf.length) (h : buf[j]? ≠ some 10) :
    (storeAt buf k [0])[j]? ≠ some 10 := by
  have set : storeAt buf k [0] = buf.set k 0 := by
    rw [storeAt, List.set_eq_take_append_cons_drop, if_pos inside, List.append_assoc]
    rfl
  rw [set, List.getElem?_set]
  split_ifs
  · exact fun e => absurd (Option.some.inj e) (by decide)
  · exact h

/-- A store leaves what is behind it. -/
lemma getElem?_storeAt_ge {bs : List UInt8} {o j : Nat} (inside : o ≤ buf.length)
    (behind : o + bs.length ≤ j) :
    (storeAt buf o bs)[j]? = buf[j]? := by
  have length : (buf.take o ++ bs).length = o + bs.length := by
    rw [List.length_append, List.length_take_of_le inside]
  rw [storeAt, List.getElem?_append_right (length ▸ behind), List.getElem?_drop, length]
  congr 1
  omega

/-- One byte stored between two lists. -/
lemma storeAt_byte (pre : List UInt8) (b c : UInt8) (post : List UInt8) :
    storeAt (pre ++ b :: post) pre.length [c] = pre ++ c :: post := by
  rw [storeAt, List.take_left, List.length_singleton, ← List.drop_drop, List.drop_left,
    List.append_assoc]
  rfl

end Strings

/-- What is left of the buffer is `text`, from `lineStart` on. -/
structure Chunk (x : Lines) (lineStart : Nat) (text : List UInt8) : Prop where
  length : x.data.length = bufsize + 1
  room : x.last ≤ bufsize
  split : ∃ pre post, x.data = pre ++ text ++ post ∧ lineStart = pre.length ∧
    x.last = pre.length + text.length

/-- The search goes on with a text when `text` is left of the buffer and `rest` of the file; there
is more of the file only when the buffer is full, and then no newline is behind it. -/
structure Intact (x : Lines) (text rest : List UInt8) : Prop where
  searchable : Searchable (text ++ rest)
  full : rest ≠ [] → x.last = bufsize ∧ x.data[bufsize]? ≠ some 10

/-- The same between two reads, where the start of the buffer is left. -/
structure Carried (x : Lines) (rest : List UInt8) : Prop where
  searchable : Searchable (x.data.take x.last ++ rest)
  guard : rest ≠ [] → x.data[bufsize]? ≠ some 10

section Pass

variable {pattern fname pre line post junk junk' : List UInt8} {w : World} {x : Lines} {cnt : Int}
  {lineStart : Nat}
  {text : List UInt8}

/-- The search of one line. -/
lemma ends_putIfFound {Q : Unit → World → Prop} (nonzero : ∀ b ∈ pattern, b ≠ 0)
    (name : ∀ b ∈ fname, b ≠ 0) (named : fname.length ≤ 1024) (short : line.length ≤ 1024)
    (h : ∀ bs, ((∀ b ∈ line, b ≠ 0) → bs = hit pattern fname line) → Q () (w.print bs)) :
    Program.Ends World.step Q (putIfFound (pattern ++ 0 :: junk) pattern.length
      (fname ++ 0 :: junk')
      (pre ++ line ++ 0 :: post) line.length pre.length) w := by
  obtain ⟨found, run, spec⟩ := searchLine_spec nonzero junk pre line post
  rw [putIfFound, run]
  refine .bind (.done ?_)
  cases found with
  | false =>
    rw [if_neg Bool.false_ne_true]
    refine .done ?_
    have nothing := h [] fun plain => (if_neg fun yes =>
      Bool.false_ne_true ((spec plain).mpr yes)).symm
    rw [print_nil] at nothing
    exact nothing
  | true =>
    have drop : (pre ++ line ++ 0 :: post).drop pre.length = line ++ 0 :: post := by
      rw [List.append_assoc, List.drop_left]
    obtain ⟨text, tail, split, plain, le, whole⟩ := nul_split line post
    rw [if_pos rfl, drop, split]
    refine .bind (ends_fdputs name named (.bind (ends_puts (by decide +kernel)
      (.bind (ends_fdputs plain (by omega) (ends_puts (by decide +kernel) ?_))))))
    have printed : (((w.print fname).print (bytesOf ":".toList)).print text).print
      (bytesOf "\n".toList)
        = w.print (fname ++ [58] ++ text ++ [10]) := by
      simp only [World.print, List.append_assoc]
      rfl
    rw [printed]
    refine h _ fun all => ?_
    rw [whole all, hit, if_pos ((spec all).mp rfl)]

/-- What a pass over the line at the start of `text` comes to, when it has printed `bs`: there is
more of the buffer to search, or the rest of it was moved to its start. -/
def Passed (pattern fname : List UInt8) (cnt : Int) (x : Lines) (text bs : List UInt8) :
    (Lines × Nat) ⊕ Lines → Prop
  | .inl (x', lineStart) => ∃ text', Chunk x' lineStart text' ∧ text'.length < text.length ∧
    ∀ rest, Intact x text rest → Intact x' text' rest ∧
      hits pattern fname (text ++ rest) = bs ++ hits pattern fname (text' ++ rest)
  | .inr x' => x'.data.length = bufsize + 1 ∧ x'.last < bufsize ∧ (cnt = 0 → x'.last = 0) ∧
    ∀ rest, (cnt = 0 → rest = []) → Intact x text rest → Carried x' rest ∧
      hits pattern fname (text ++ rest) = bs ++ hits pattern fname (x'.data.take x'.last ++ rest)

/-- Nothing is printed of an empty line. -/
lemma hit_nil : hit pattern fname [] = [] := if_neg fun h => h.1 (List.infix_nil.mp h.2)

/-- The empty text has no hit. -/
lemma hits_nil : hits pattern fname [] = [] := (onLines_line List.not_mem_nil).trans hit_nil

/-- The hits of one line. -/
lemma hits_line (free : 10 ∉ line) : hits pattern fname line = hit pattern fname line :=
  onLines_line free

/-- The hits of the first line and of the others. -/
lemma hits_more {rest : List UInt8} (free : 10 ∉ line) :
    hits pattern fname (line ++ 10 :: rest) = hit pattern fname line ++ hits pattern fname rest :=
  onLines_more free

/-- The other lines can be searched. -/
lemma Searchable.more {rest : List UInt8} (h : Searchable (line ++ 10 :: rest)) (free : 10 ∉ line) :
    Searchable rest :=
  ⟨fun b hb => h.nonzero b (List.mem_append_right _ (List.mem_cons_of_mem _ hb)), h.lines.more free⟩

/-- A pass over a line that ends in the buffer. -/
lemma ends_nextLine_newline (nonzero : ∀ b ∈ pattern, b ≠ 0) (name : ∀ b ∈ fname, b ≠ 0)
    (named : fname.length ≤ 1024)
    (length : (pre ++ line ++ 10 :: (text ++ post)).length = bufsize + 1)
    (room : pre.length + (line ++ 10 :: text).length ≤ bufsize) (free : 10 ∉ line) :
    Program.Ends World.step (fun r w' => ∃ bs, w' = w.print bs ∧ Passed pattern fname cnt
      ⟨pre ++ line ++ 10 :: (text ++ post), pre.length + (line ++ 10 :: text).length⟩
        (line ++ 10 :: text) bs r)
      (nextLine (pattern ++ 0 :: junk) pattern.length (fname ++ 0 :: junk') cnt
        (⟨pre ++ line ++ 10 :: (text ++ post), pre.length + (line ++ 10 :: text).length⟩,
          pre.length)) w := by
  have wide : (line ++ 10 :: text).length = line.length + (text.length + 1) := List.length_append
  have all : (pre ++ line).length = pre.length + line.length := List.length_append
  have inside : (pre ++ line).length < (pre ++ line ++ 10 :: (text ++ post)).length := by
    rw [all]
    omega
  have finds : findEnd (pre ++ line ++ 10 :: (text ++ post))
    (pre.length + (line ++ 10 :: text).length - pre.length)
      pre.length = some (pre ++ line).length := by
    rw [wide, Nat.add_sub_cancel_left, findEnd_newline free, all]
  refine .need finds (.need (getElem?_middle ..) ?_)
  rw [if_neg fun h => h.1 rfl]
  refine ends_store inside ?_
  rw [storeAt_byte, show (pre ++ line).length - pre.length = line.length by omega]
  refine .bind (ends_putIfFound nonzero name named (by rw [bufsize] at room; omega)
    fun bs printed => ?_)
  -- what was printed is what the line has to give
  have gives {rest : List UInt8} (intact : Intact ⟨pre ++ line ++ 10 :: (text ++ post),
      pre.length + (line ++ 10 :: text).length⟩ (line ++ 10 :: text) rest) :
      Searchable (text ++ rest) ∧
        hits pattern fname (line ++ 10 :: text ++ rest)
          = bs ++ hits pattern fname (text ++ rest) := by
    have searchable := intact.searchable
    rw [List.append_assoc, List.cons_append] at searchable ⊢
    refine ⟨searchable.more free, ?_⟩
    rw [hits_more free, printed fun b hb => searchable.nonzero b (List.mem_append_left _ hb)]
  have guard : (pre ++ line ++ 10 :: (text ++ post))[bufsize]? ≠ some 10 →
      (pre ++ line ++ 0 :: (text ++ post))[bufsize]? ≠ some 10 := by
    rw [← storeAt_byte (pre ++ line) 10 0]
    exact guard_storeAt inside
  dsimp only
  split_ifs with done
  · have nil : text = [] := List.eq_nil_of_length_eq_zero (by omega)
    refine .done ⟨bs, rfl, ?_, Nat.succ_pos _, fun _ => rfl, fun rest _ intact => ?_⟩
    · exact (length_middle (pre ++ line) 0 10 _).trans length
    · obtain ⟨searchable, out⟩ := gives intact
      rw [nil, List.nil_append] at searchable
      refine ⟨⟨searchable, fun ne => guard (intact.full ne).2⟩, out.trans ?_⟩
      rw [nil]
      rfl
  · have marked : (pre ++ line ++ [0]).length = (pre ++ line).length + 1 := List.length_append
    refine .done ⟨bs, rfl, text, ⟨?_, room, pre ++ line ++ [0], post, ?_, ?_, ?_⟩, ?_,
      fun rest intact => ?_⟩
    · exact (length_middle (pre ++ line) 0 10 _).trans length
    · simp only [List.append_assoc, List.cons_append, List.nil_append]
    · omega
    · dsimp only
      omega
    · omega
    · obtain ⟨searchable, out⟩ := gives intact
      exact ⟨⟨searchable, fun ne => ⟨(intact.full ne).1, guard (intact.full ne).2⟩⟩, out⟩

/-- A pass that moves the start of a line to the start of the buffer. -/
lemma ends_nextLine_copy {b : UInt8} (length : (pre ++ text ++ b :: post).length = bufsize + 1)
    (room : pre.length + text.length ≤ bufsize) (free : 10 ∉ text)
    (copies : b ≠ 10 ∧ cnt ≠ 0 ∧ pre.length ≠ 0) :
    Program.Ends World.step (fun r w' => ∃ bs, w' = w.print bs ∧ Passed pattern fname cnt
      ⟨pre ++ text ++ b :: post, pre.length + text.length⟩ text bs r)
      (nextLine (pattern ++ 0 :: junk) pattern.length (fname ++ 0 :: junk') cnt
        (⟨pre ++ text ++ b :: post, pre.length + text.length⟩, pre.length)) w := by
  have all : (pre ++ text).length = pre.length + text.length := List.length_append
  have inside : (pre ++ text).length < (pre ++ text ++ b :: post).length := by
    rw [all]
    omega
  have finds : findEnd (pre ++ text ++ b :: post) (pre.length + text.length - pre.length) pre.length
      = some (pre ++ text).length := by
    rw [Nat.add_sub_cancel_left, all]
    exact findEnd_line free 0 pre
  have same : (pre ++ text ++ 0 :: post).length = bufsize + 1 :=
    (length_middle (pre ++ text) 0 b _).trans length
  obtain ⟨start, tail, split, plain, le, whole⟩ := nul_split text post
  have copied : ece391Strcpy (pre ++ text ++ 0 :: post).length
    (pre ++ text ++ 0 :: post) 0 pre.length
      = some (storeAt (pre ++ text ++ 0 :: post) 0 (start ++ [0])) := by
    have here : (pre ++ text ++ 0 :: post).drop pre.length = start ++ 0 :: tail := by
      rw [List.append_assoc, List.drop_left]
      exact split
    exact strcpy_down plain here (Nat.pos_of_ne_zero copies.2.2) (by omega)
  have short : (start ++ [0]).length = start.length + 1 := List.length_append
  refine .need finds (.need (getElem?_middle ..) ?_)
  rw [if_pos copies]
  refine ends_store inside ?_
  rw [storeAt_byte]
  refine .need copied (.done ⟨[], (print_nil w).symm, ?_, ?_,
    fun zero => absurd zero copies.2.1, ?_⟩)
  · rw [length_storeAt (by omega), same]
  · dsimp only
    omega
  · intro rest _ intact
    have kept := whole fun c hc => intact.searchable.nonzero c (List.mem_append_left _ hc)
    have carried : (storeAt (pre ++ text ++ 0 :: post) 0 (start ++ [0])).take
      (pre.length + text.length - pre.length)
        = text := by
      rw [Nat.add_sub_cancel_left, ← kept, storeAt, List.take_zero, List.nil_append,
        List.append_assoc, List.take_left]
    refine ⟨⟨?_, fun ne => ?_⟩, ?_⟩
    · rw [carried]
      exact intact.searchable
    · rw [getElem?_storeAt_ge (Nat.zero_le _) (by omega), ← storeAt_byte (pre ++ text) b 0]
      exact guard_storeAt inside (intact.full ne).2
    · rw [carried]
      rfl

/-- A pass over the last line in the buffer. -/
lemma ends_nextLine_last {b : UInt8} (nonzero : ∀ b ∈ pattern, b ≠ 0) (name : ∀ b ∈ fname, b ≠ 0)
    (named : fname.length ≤ 1024) (length : (pre ++ text ++ b :: post).length = bufsize + 1)
    (room : pre.length + text.length ≤ bufsize) (free : 10 ∉ text)
    (searches : ¬ (b ≠ 10 ∧ cnt ≠ 0 ∧ pre.length ≠ 0)) :
    Program.Ends World.step (fun r w' => ∃ bs, w' = w.print bs ∧ Passed pattern fname cnt
      ⟨pre ++ text ++ b :: post, pre.length + text.length⟩ text bs r)
      (nextLine (pattern ++ 0 :: junk) pattern.length (fname ++ 0 :: junk') cnt
        (⟨pre ++ text ++ b :: post, pre.length + text.length⟩, pre.length)) w := by
  have all : (pre ++ text).length = pre.length + text.length := List.length_append
  have inside : (pre ++ text).length < (pre ++ text ++ b :: post).length := by
    rw [all]
    omega
  have finds : findEnd (pre ++ text ++ b :: post) (pre.length + text.length - pre.length) pre.length
      = some (pre ++ text).length := by
    rw [Nat.add_sub_cancel_left, all]
    exact findEnd_line free 0 pre
  refine .need finds (.need (getElem?_middle ..) ?_)
  rw [if_neg searches]
  refine ends_store inside ?_
  rw [storeAt_byte, show (pre ++ text).length - pre.length = text.length by omega]
  refine .bind (ends_putIfFound nonzero name named (by rw [bufsize] at room; omega)
    fun bs printed => ?_)
  dsimp only
  rw [if_pos (by omega)]
  refine .done ⟨bs, rfl, ?_, Nat.succ_pos _, fun _ => rfl, fun rest none intact => ?_⟩
  · exact (length_middle (pre ++ text) 0 b _).trans length
  · have searchable := intact.searchable
    -- the line ends with the file, or with a newline that is still to be read
    have behind : rest = [] ∨ ∃ rest', rest = 10 :: rest' := by
      by_cases nil : rest = []
      · exact .inl nil
      · obtain ⟨full, guard⟩ := intact.full nil
        dsimp only at full guard
        have newline : b ≠ 10 := by
          rintro rfl
          apply guard
          rw [← full, ← all]
          exact getElem?_middle ..
        have some_read : cnt ≠ 0 := fun zero => nil (none zero)
        have first : pre.length = 0 := by
          by_contra later
          exact searches ⟨newline, some_read, later⟩
        exact searchable.lines.full free (by omega)
    have plain := printed fun c hc => searchable.nonzero c (List.mem_append_left _ hc)
    dsimp only
    rw [List.take_zero, List.nil_append]
    rcases behind with rfl | ⟨rest', rfl⟩
    · refine ⟨⟨⟨fun _ h => absurd h List.not_mem_nil, .empty⟩, fun ne => absurd rfl ne⟩, ?_⟩
      rw [List.append_nil, hits_line free, hits_nil, List.append_nil, plain]
    · refine ⟨⟨⟨fun c hc => searchable.nonzero c (List.mem_append_right _ hc),
        searchable.lines.cut free⟩, fun ne => ?_⟩, ?_⟩
      · rw [← storeAt_byte (pre ++ text) b 0]
        exact guard_storeAt inside (intact.full ne).2
      · rw [hits_more free, plain]
        exact congrArg _ (onLines_sep hit_nil).symm

/-- One pass of the loop over the lines of the buffer. -/
lemma ends_nextLine (nonzero : ∀ b ∈ pattern, b ≠ 0) (name : ∀ b ∈ fname, b ≠ 0)
    (named : fname.length ≤ 1024) (chunk : Chunk x lineStart text) :
    Program.Ends World.step (fun r w' => ∃ bs, w' = w.print bs ∧
      Passed pattern fname cnt x text bs r)
      (nextLine (pattern ++ 0 :: junk) pattern.length (fname ++ 0 :: junk') cnt
        (x, lineStart)) w := by
  obtain ⟨length, room, pre, post, split, rfl, last⟩ := chunk
  rcases x with ⟨data, last⟩
  dsimp only at *
  subst last split
  rcases line_or_more 10 text with free | ⟨line, text', rfl, free⟩
  · cases post with
    | nil =>
      rw [List.append_nil, List.length_append] at length
      omega
    | cons b post =>
      by_cases copies : b ≠ 10 ∧ cnt ≠ 0 ∧ pre.length ≠ 0
      · exact ends_nextLine_copy length room free copies
      · exact ends_nextLine_last nonzero name named length room free copies
  · have place : pre ++ (line ++ 10 :: text') ++ post = pre ++ line ++ 10 :: (text' ++ post) := by
      simp only [List.append_assoc, List.cons_append]
    rw [place] at length ⊢
    exact ends_nextLine_newline nonzero name named length room free

/-- The loop over the lines of the buffer. -/
lemma ends_lines (nonzero : ∀ b ∈ pattern, b ≠ 0) (name : ∀ b ∈ fname, b ≠ 0)
    (named : fname.length ≤ 1024) (chunk : Chunk x 0 text) :
    Program.Ends World.step (fun x' w' => ∃ bs, w' = w.print bs ∧
      Passed pattern fname cnt x text bs (.inr x'))
      (loop (nextLine (pattern ++ 0 :: junk) pattern.length (fname ++ 0 :: junk') cnt) (bufsize + 2)
        (x, 0)) w := by
  refine Program.Ends.loop (fun y w' => ∃ bs text', w' = w.print bs ∧ Chunk y.1 y.2 text' ∧
      ∀ rest, Intact x text rest → Intact y.1 text' rest ∧
        hits pattern fname (text ++ rest) = bs ++ hits pattern fname (text' ++ rest))
    (fun y _ => y.1.last - y.2) ?_ ⟨[], text, (print_nil w).symm, chunk, fun rest intact =>
      ⟨intact, rfl⟩⟩ ?_
  · rintro ⟨x', lineStart⟩ w' ⟨bs, text', rfl, chunk', so_far⟩
    refine (ends_nextLine nonzero name named chunk').mono ?_
    rintro r w' ⟨bs', rfl, passed⟩
    have width {y : Lines} {start : Nat} {t : List UInt8} (c : Chunk y start t) :
      y.last - start = t.length := by
      obtain ⟨-, -, pre, post, -, rfl, last⟩ := c
      omega
    rw [print_print]
    cases r with
    | inl y =>
      obtain ⟨text'', chunk'', shorter, step⟩ := passed
      refine ⟨⟨bs ++ bs', text'', rfl, chunk'', fun rest intact => ?_⟩, ?_⟩
      · obtain ⟨intact', out⟩ := so_far rest intact
        obtain ⟨intact'', out'⟩ := step rest intact'
        exact ⟨intact'', by rw [out, out', List.append_assoc]⟩
      · rw [width chunk'', width chunk']
        exact shorter
    | inr y =>
      obtain ⟨length, room, finished, step⟩ := passed
      refine ⟨bs ++ bs', rfl, length, room, finished, fun rest none intact => ?_⟩
      obtain ⟨intact', out⟩ := so_far rest intact
      obtain ⟨carried, out'⟩ := step rest none intact'
      exact ⟨carried, by rw [out, out', List.append_assoc]⟩
  · have room := chunk.room
    dsimp only
    omega

end Pass

section Files

variable {pattern fname junk junk' : List UInt8} {w w' : World} {x : Lines} {n fd : Nat}
  {y : Stream}

/-- A stream whose reads return what there is. -/
def Stream.Plain : Stream → Prop
  | .device | .file _ _ => True
  | .directory _ | .broken => False

/-- A read returns what the stream has, up to the count. -/
lemma readStream_plain (plain : y.Plain) (readable : w.Readable y) (n : Nat) : ∃ y',
    w.readStream n y = some (y', ⟨(y.text.take n).length, y.text.take n⟩) ∧
      y'.Plain ∧ w.Readable y' ∧ y'.text = y.text.drop n := by
  cases y with
  | device =>
    refine ⟨.device, ?_, trivial, trivial, List.drop_nil.symm⟩
    rw [Stream.text, List.take_nil]
    rfl
  | file inode rest =>
    refine ⟨.file inode (rest.drop n), if_pos readable, trivial, ?_, rfl⟩
    rcases readable with counts | nil
    · exact .inl counts
    · exact .inr (by rw [nil, List.drop_nil])
  | directory => exact plain.elim
  | broken => exact plain.elim

/-- One pass of the loop over the file. -/
lemma ends_nextChunk (nonzero : ∀ b ∈ pattern, b ≠ 0) (name : ∀ b ∈ fname, b ≠ 0)
    (named : fname.length ≤ 1024) (length : x.data.length = bufsize + 1) (room : x.last < bufsize)
    (opened : w.fds fd = some y) (plain : y.Plain) (readable : w.Readable y) (low : 2 ≤ fd)
    (high : fd < 7) :
    Program.Ends World.step (fun r w' => ∃ y' bs, w' = (w.setFd fd (some y')).print bs ∧
      match r with
      | .inl x' => y'.Plain ∧ w.Readable y' ∧ y'.text.length < y.text.length ∧
        x'.data.length = bufsize + 1 ∧ x'.last < bufsize ∧ (Carried x y.text → Carried x' y'.text ∧
          hits pattern fname (x.data.take x.last ++ y.text)
            = bs ++ hits pattern fname (x'.data.take x'.last ++ y'.text))
      | .inr r => r = 0 ∧
        (Carried x y.text → hits pattern fname (x.data.take x.last ++ y.text) = bs))
      (nextChunk (pattern ++ 0 :: junk) pattern.length (fname ++ 0 :: junk') fd x) w := by
  obtain ⟨y', read, plain', readable', text⟩ := readStream_plain plain readable (bufsize - x.last)
  have width : (y.text.take (bufsize - x.last)).length = min (bufsize - x.last) y.text.length :=
    List.length_take
  have call :=
    step_read (show bufsize - x.last ≤ 1024 by rw [bufsize]; omega) low high opened read rfl
  refine .bind (.perform call ?_)
  dsimp only
  rw [if_neg (by omega), Int.toNat_natCast]
  have fits : x.last + (y.text.take (bufsize - x.last)).length ≤ x.data.length := by omega
  refine ends_store fits ?_
  have chunk : Chunk ⟨storeAt x.data x.last (y.text.take (bufsize - x.last)),
      x.last + (y.text.take (bufsize - x.last)).length⟩ 0
        (x.data.take x.last ++ y.text.take (bufsize - x.last)) := by
    refine ⟨(length_storeAt fits).trans length, ?_, [], _, rfl, rfl, ?_⟩
    · dsimp only
      omega
    · have carry : (x.data.take x.last).length = x.last := List.length_take_of_le (by omega)
      rw [List.length_append, carry, List.length_nil, Nat.zero_add]
  have intact (carried : Carried x y.text) : Intact
    ⟨storeAt x.data x.last (y.text.take (bufsize - x.last)),
      x.last + (y.text.take (bufsize - x.last)).length⟩
        (x.data.take x.last ++ y.text.take (bufsize - x.last))
      y'.text := by
    refine ⟨?_, fun ne => ?_⟩
    · rw [text, List.append_assoc, List.take_append_drop]
      exact carried.searchable
    · rw [text] at ne
      have more : bufsize - x.last < y.text.length := by
        by_contra no
        exact ne (List.drop_eq_nil_of_le (by omega))
      refine ⟨by dsimp only; omega, ?_⟩
      rw [getElem?_storeAt_ge (by omega) (by omega)]
      exact carried.guard fun nil => by rw [nil] at more; exact absurd more (Nat.not_lt_zero _)
  refine .bind ((ends_lines nonzero name named chunk).mono ?_)
  rintro x' w' ⟨bs, rfl, length', room', finished, step⟩
  have whole : x.data.take x.last ++ y.text.take (bufsize - x.last) ++ y'.text
      = x.data.take x.last ++ y.text := by
    rw [text, List.append_assoc, List.take_append_drop]
  have none (zero : ((y.text.take (bufsize - x.last)).length : Int) = 0) : y.text = [] :=
    List.eq_nil_of_length_eq_zero (by omega)
  have none' (zero : ((y.text.take (bufsize - x.last)).length : Int) = 0) : y'.text = [] := by
    rw [text, none zero, List.drop_nil]
  split_ifs with zero
  · refine .done ⟨y', bs, rfl, rfl, fun carried => ?_⟩
    have out := (step y'.text none' (intact carried)).2
    rw [whole, finished zero, none' zero, List.take_zero, List.nil_append, hits_nil,
      List.append_nil] at out
    exact out
  · refine .done ⟨y', bs, rfl, plain', readable', ?_, length', room', fun carried => ?_⟩
    · rw [text, List.length_drop]
      omega
    · rw [← whole]
      exact step y'.text none' (intact carried)

/-- The search of a file that can be read. -/
lemma ends_chunks (nonzero : ∀ b ∈ pattern, b ≠ 0) (name : ∀ b ∈ fname, b ≠ 0)
    (named : fname.length ≤ 1024) {data : List UInt8} (length : data.length = bufsize + 1)
    (opened : w.fds fd = some y) (plain : y.Plain) (readable : w.Readable y) (low : 2 ≤ fd)
    (high : fd < 7) (enough : y.text.length < n) :
    Program.Ends World.step (fun r w' => ∃ y' bs, r = 0 ∧ w' = (w.setFd fd (some y')).print bs ∧
        (Searchable y.text → data[bufsize]? ≠ some 10 → bs = hits pattern fname y.text))
      (loop (nextChunk (pattern ++ 0 :: junk) pattern.length (fname ++ 0 :: junk') fd) n
        ⟨data, 0⟩) w := by
  have twice (a b : Stream) (bs : List UInt8) : ((w.setFd fd (some a)).print bs).setFd fd (some b)
      = (w.setFd fd (some b)).print bs := by
    simp only [World.setFd, World.print, Function.update_idem]
  refine Program.Ends.loop (fun x w' => ∃ y' bs, w' = (w.setFd fd (some y')).print bs ∧ y'.Plain ∧
      w.Readable y' ∧ x.data.length = bufsize + 1 ∧ x.last < bufsize ∧
      (Searchable y.text → data[bufsize]? ≠ some 10 → Carried x y'.text ∧
        hits pattern fname y.text = bs ++ hits pattern fname (x.data.take x.last ++ y'.text)))
    (fun _ w' => ((w'.fds fd).map fun y' => y'.text.length).getD 0) ?_ ?_ ?_
  · rintro x w' ⟨y', bs, rfl, plain', readable', length', room', so_far⟩
    have now : ((w.setFd fd (some y')).print bs).fds fd = some y' := Function.update_self ..
    refine (ends_nextChunk nonzero name named length' room' now plain'
      (readable'.congr rfl) low high).mono ?_
    rintro r w' ⟨y'', bs', rfl, h⟩
    rw [twice, print_print]
    cases r with
    | inl x' =>
      obtain ⟨plain'', readable'', shorter, length'', room'', step⟩ := h
      refine ⟨⟨y'', bs ++ bs', rfl, plain'', readable''.congr rfl, length'', room'',
        fun text guard => ?_⟩, ?_⟩
      · obtain ⟨carried, out⟩ := so_far text guard
        obtain ⟨carried', out'⟩ := step carried
        exact ⟨carried', by rw [out, out', List.append_assoc]⟩
      · have now' : ((w.setFd fd (some y'')).print (bs ++ bs')).fds fd = some y'' :=
          Function.update_self ..
        rw [now, now']
        exact shorter
    | inr r =>
      obtain ⟨rfl, step⟩ := h
      refine ⟨y'', bs ++ bs', rfl, rfl, fun text guard => ?_⟩
      obtain ⟨carried, out⟩ := so_far text guard
      rw [out, step carried]
  · refine ⟨y, [], ?_, plain, readable, length, Nat.succ_pos _, fun text guard =>
      ⟨⟨?_, fun _ => guard⟩, rfl⟩⟩
    · rw [print_nil, World.setFd_self opened]
    · exact text
  · rw [opened]
    exact enough

/-- `do_one_file` of a name that is not found. -/
lemma ends_doOneFile_missing {data : List UInt8} (nonzero : ∀ b ∈ pattern, b ≠ 0)
    (name : ∀ b ∈ fname, b ≠ 0) (missing : w.openFile fname = some (w, ⟨-1, []⟩)) :
    Program.Ends World.step
      (fun r w' => r = -1 ∧ w' = w.print (bytesOf "file open failed\n".toList))
      (doOneFile n data (pattern ++ 0 :: junk) (fname ++ 0 :: junk')) w := by
  have call : World.step w (.open (fname ++ 0 :: junk')) = some (w, ⟨-1, []⟩) := by
    rw [World.step, upToNul_append name]
    exact missing
  refine .need (strlen_append nonzero) (.bind (.perform call ?_))
  dsimp only
  rw [if_pos rfl]
  exact .bind (ends_puts (by decide +kernel) (.done ⟨rfl, rfl⟩))

/-- `do_one_file` of a file of which no read goes through. -/
lemma ends_doOneFile_broken {data text : List UInt8} {inode : Nat} (nonzero : ∀ b ∈ pattern, b ≠ 0)
    (name : ∀ b ∈ fname, b ≠ 0)
    (opened : w.openFile fname = some (w'.setFd fd (some (.file inode text)), ⟨fd, []⟩))
    (broken : ¬ (w'.Counts inode ∨ text = [])) (low : 2 ≤ fd) (high : fd < 7) (pos : 0 < n) :
    Program.Ends World.step (fun r w'' => r = -1 ∧
      w''.output = w'.output ++ bytesOf "file read failed\n".toList)
      (doOneFile n data (pattern ++ 0 :: junk) (fname ++ 0 :: junk')) w := by
  have call : World.step w (.open (fname ++ 0 :: junk'))
      = some (w'.setFd fd (some (.file inode text)), ⟨fd, []⟩) := by
    rw [World.step, upToNul_append name]
    exact opened
  obtain ⟨n, rfl⟩ := Nat.exists_eq_succ_of_ne_zero pos.ne'
  have read := step_read (w := w'.setFd fd (some (.file inode text))) (Nat.le_refl 1024) low high
    (Function.update_self ..) (if_neg broken) rfl
  refine .need (strlen_append nonzero) (.bind (.perform call ?_))
  dsimp only
  rw [if_neg (by omega)]
  refine .bind (.andThen (.bind (.perform read ?_)))
  rw [if_pos rfl]
  refine .bind (ends_puts (by decide +kernel) (.done (.done ?_)))
  rw [if_pos (by decide)]
  exact .done ⟨rfl, rfl⟩

/-- **`do_one_file`** of a file that can be read: it ends, whatever the bytes of the file are, and
closes the file. -/
lemma ends_doOneFile {data : List UInt8} (nonzero : ∀ b ∈ pattern, b ≠ 0)
    (name : ∀ b ∈ fname, b ≠ 0) (named : fname.length ≤ 1024) (length : data.length = bufsize + 1)
    (opened : w.openFile fname = some (w'.setFd fd (some y), ⟨fd, []⟩)) (free : w'.fds fd = none)
    (plain : y.Plain) (readable : w'.Readable y) (low : 2 ≤ fd) (high : fd < 7)
    (enough : y.text.length < n) :
    Program.Ends World.step (fun r w'' => r = 0 ∧ ∃ bs, w'' = w'.print bs ∧
        (Searchable y.text → data[bufsize]? ≠ some 10 → bs = hits pattern fname y.text))
      (doOneFile n data (pattern ++ 0 :: junk) (fname ++ 0 :: junk')) w := by
  have call : World.step w (.open (fname ++ 0 :: junk'))
      = some (w'.setFd fd (some y), ⟨fd, []⟩) := by
    rw [World.step, upToNul_append name]
    exact opened
  have now : (w'.setFd fd (some y)).fds fd = some y := Function.update_self ..
  refine .need (strlen_append nonzero) (.bind (.perform call ?_))
  dsimp only
  rw [if_neg (by omega)]
  refine .bind
    ((ends_chunks nonzero name named length now plain (readable.congr rfl) low high enough).mono ?_)
  rintro r w'' ⟨y', bs, rfl, rfl, out⟩
  have close : World.step (((w'.setFd fd (some y)).setFd fd (some y')).print bs) (.close fd)
      = some (w'.print bs, ⟨0, []⟩) := by
    have still : (((w'.setFd fd (some y)).setFd fd (some y')).print bs).fds fd = some y' :=
      Function.update_self ..
    have closed : (((w'.setFd fd (some y)).setFd fd (some y')).print bs).setFd fd none
        = w'.print bs := by
      rw [← World.setFd_self (w := w'.print bs) free]
      simp only [World.setFd, World.print, Function.update_idem]
    rw [World.step, if_pos ⟨by omega, by omega⟩, World.close, if_neg (by omega),
      Int.toNat_natCast, still]
    dsimp only
    rw [closed]
  rw [if_neg (fun h => h rfl)]
  refine .bind (.perform close ?_)
  dsimp only
  rw [if_neg (by decide)]
  exact .done ⟨rfl, bs, rfl, out⟩

end Files

end Kernel391.User
