import Mathlib.Data.List.DropRight

/-!
# Rust `str` operations on lists of characters

`char::is_whitespace`, `str::trim`, `str::lines`, `str::strip_prefix` and
`str::split_once` as the standard library documents them, and what they do to
blank text: `trim` forgets it, and no operation here loses a `solid` character
unseen.
-/

namespace RustStr

/-- The characters with Unicode's `White_Space` property. -/
def isWhitespace (c : Char) : Bool :=
  let n := c.toNat
  (9 ≤ n && n ≤ 13) || n == 0x20 || n == 0x85 || n == 0xA0 || n == 0x1680 ||
    (0x2000 ≤ n && n ≤ 0x200A) || n == 0x2028 || n == 0x2029 || n == 0x202F || n == 0x205F ||
    n == 0x3000

def trim (s : List Char) : List Char := (s.dropWhile isWhitespace).rdropWhile isWhitespace

def trimEnd (s : List Char) : List Char := s.rdropWhile isWhitespace

/-- A line that a newline ended loses one carriage return before it. -/
def stripCr (line : List Char) : List Char :=
  if line.getLast? = some '\r' then line.dropLast else line

/-- The pieces between newlines. The last piece has no newline of its own: it
keeps its carriage return, and is no line when it is empty. -/
def lines (s : List Char) : List (List Char) :=
  let pieces := s.splitOn '\n'
  pieces.dropLast.map stripCr ++ pieces.getLast?.toList.filter (!·.isEmpty)

def stripPrefix (s start : List Char) : Option (List Char) := s.dropPrefix? start

/-- Splits at the first character that passes the test, which is dropped. -/
def splitOnce (s : List Char) (p : Char → Bool) : Option (List Char × List Char) :=
  match s.dropWhile (!p ·) with
  | [] => none
  | _ :: tail => some (s.takeWhile (!p ·), tail)

theorem stripPrefix_eq_some {s start rest : List Char} :
    stripPrefix s start = some rest ↔ s = start ++ rest := by
  simp [stripPrefix, List.dropPrefix?_eq_some_iff]

/-! ## Lines -/

/-- The lines of text that a newline ends. -/
def wholeLines (s : List Char) : List (List Char) := (s.splitOn '\n').map stripCr

theorem wholeLines_newline (s t : List Char) :
    wholeLines (s ++ '\n' :: t) = wholeLines s ++ wholeLines t := by
  rw [wholeLines, List.splitOn_append_cons_self, List.map_append]
  rfl

theorem wholeLines_single {s : List Char} (single : '\n' ∉ s) : wholeLines s = [stripCr s] := by
  rw [wholeLines, List.splitOn_eq_singleton single]
  rfl

/-- The lines before a newline are whole, whatever follows it. -/
theorem lines_newline (s t : List Char) : lines (s ++ '\n' :: t) = wholeLines s ++ lines t := by
  have some : t.splitOn '\n' ≠ [] := List.splitOn_ne_nil _ _
  simp only [lines, wholeLines, List.splitOn_append_cons_self, List.dropLast_append_of_ne_nil some,
    List.getLast?_append_of_ne_nil _ some, List.map_append, List.append_assoc]

theorem lines_single {s : List Char} (single : '\n' ∉ s) (some : s ≠ []) : lines s = [s] := by
  simp [lines, List.splitOn_eq_singleton single, some]

@[simp] theorem lines_nil : lines [] = [] := by decide

theorem mem_of_mem_stripCr {c : Char} {line : List Char} (h : c ∈ stripCr line) : c ∈ line := by
  unfold stripCr at h
  split at h
  · exact List.dropLast_subset _ h
  · exact h

theorem single_of_mem_splitOn {s piece : List Char} (h : piece ∈ s.splitOn '\n') :
    '\n' ∉ piece := by
  induction s generalizing piece with
  | nil =>
    rw [List.splitOn_nil, List.mem_singleton] at h
    simp [h]
  | cons c rest ih =>
    rw [List.splitOn_cons_eq_if_modifyHead] at h
    split at h
    · rcases List.mem_cons.mp h with rfl | later
      · simp
      · exact ih later
    · rename_i other
      obtain ⟨first, later, split⟩ := List.exists_cons_of_ne_nil (List.splitOn_ne_nil '\n' rest)
      rw [split, List.modifyHead_cons] at h
      rcases List.mem_cons.mp h with rfl | h
      · have clean : '\n' ∉ first := ih (split ▸ List.mem_cons_self)
        rintro (_ | ⟨_, newline⟩)
        · exact other (beq_self_eq_true _)
        · exact clean newline
      · exact ih (split ▸ List.mem_cons_of_mem _ h)

theorem single_of_mem_lines {s line : List Char} (h : line ∈ lines s) : '\n' ∉ line := by
  rcases List.mem_append.mp h with whole | last
  · obtain ⟨piece, cut, rfl⟩ := List.mem_map.mp whole
    exact fun newline =>
      single_of_mem_splitOn (List.dropLast_subset _ cut) (mem_of_mem_stripCr newline)
  · have cut := (List.mem_filter.mp last).1
    exact single_of_mem_splitOn (List.mem_of_getLast? (by simpa using cut))

/-! ## Blank text -/

def Blank (s : List Char) : Prop := ∀ c ∈ s, isWhitespace c = true

instance (s : List Char) : Decidable (Blank s) := List.decidableBAll _ s

theorem trim_append_of_blank {s : List Char} (blank : Blank s) (t : List Char) :
    trim (s ++ t) = trim t := by
  simp [trim, List.dropWhile_append_of_pos blank]

theorem trim_of_blank {s : List Char} (blank : Blank s) : trim s = [] := by
  simpa [trim] using trim_append_of_blank blank []

/-- Trimming text with a last character that is no whitespace. -/
theorem trim_concat {s : List Char} {c : Char} (solid : isWhitespace c = false) :
    trim (s ++ [c]) = s.dropWhile isWhitespace ++ [c] := by
  have kept : (s ++ [c]).dropWhile isWhitespace = s.dropWhile isWhitespace ++ [c] := by
    rw [List.dropWhile_append]
    split
    · rename_i gone
      simp [List.isEmpty_iff.mp gone, solid]
    · rfl
  rw [trim, kept, List.rdropWhile_concat_neg _ _ _ (by simp [solid])]

theorem trim_stripCr (line : List Char) : trim (stripCr line) = trim line := by
  unfold stripCr
  split
  · rename_i last
    have split := List.dropLast_append_getLast? _ last
    have cr : isWhitespace '\r' = true := by decide
    rw [← split, List.dropLast_concat]
    simp only [trim, List.dropWhile_append]
    split
    · rename_i gone
      simp [List.isEmpty_iff.mp gone, cr]
    · rw [List.rdropWhile_concat_pos _ _ _ cr]
  · rfl

theorem trim_append_blank {post : List Char} (blank : Blank post) (s : List Char) :
    trim (s ++ post) = trim s := by
  have back : ∀ t : List Char,
      (t ++ post).rdropWhile isWhitespace = t.rdropWhile isWhitespace := by
    intro t
    have gone : ∀ c ∈ post.reverse, isWhitespace c = true :=
      fun c hc => blank c (List.mem_reverse.mp hc)
    rw [List.rdropWhile, List.reverse_append, List.dropWhile_append_of_pos gone]
    rfl
  rw [trim, trim, List.dropWhile_append]
  split
  · rename_i gone
    rw [List.isEmpty_iff.mp gone, List.dropWhile_eq_nil_iff.mpr blank]
  · exact back _

/-- Text is its trimmed part between blanks. -/
theorem trim_split (s : List Char) :
    ∃ pre post, s = pre ++ (trim s ++ post) ∧ Blank pre ∧ Blank post := by
  refine ⟨s.takeWhile isWhitespace, (s.dropWhile isWhitespace).rtakeWhile isWhitespace, ?_,
    fun c hc => List.mem_takeWhile_imp hc, fun c hc => List.mem_rtakeWhile_imp hc⟩
  rw [trim, List.rdropWhile_append_rtakeWhile, List.takeWhile_append_dropWhile]

theorem trim_trim (s : List Char) : trim (trim s) = trim s := by
  obtain ⟨pre, post, split, before, after⟩ := trim_split s
  conv_rhs => rw [split, trim_append_of_blank before, trim_append_blank after]

theorem length_trim_le (s : List Char) : (trim s).length ≤ s.length := by
  obtain ⟨pre, post, split, -⟩ := trim_split s
  have whole := congrArg List.length split
  simp only [List.length_append] at whole
  omega

theorem trim_eq_self_iff {s : List Char} :
    trim s = s ↔ (∀ c ∈ s.head?, isWhitespace c = false) ∧
      ∀ c ∈ s.getLast?, isWhitespace c = false := by
  constructor
  · intro same
    constructor
    · intro c first
      by_contra blank
      obtain ⟨rest, rfl⟩ := List.head?_eq_some_iff.mp first
      have shorter := trim_append_of_blank (s := [c]) (by simpa [Blank] using blank) rest
      rw [List.singleton_append, same] at shorter
      have := length_trim_le rest
      simp only [← shorter, List.length_cons] at this
      omega
    · intro c last
      by_contra blank
      obtain ⟨init, rfl⟩ := List.getLast?_eq_some_iff.mp last
      have behind : Blank [c] := by simpa [Blank] using blank
      have shorter := trim_append_blank behind init
      rw [same] at shorter
      have := length_trim_le init
      simp only [← shorter, List.length_cons, List.length_append, List.length_nil] at this
      omega
  · rintro ⟨first, last⟩
    have front : s.dropWhile isWhitespace = s := by
      cases s with
      | nil => rfl
      | cons c rest => rw [List.dropWhile_cons_of_neg (by simp [first c rfl])]
    rw [trim, front, List.rdropWhile_eq_self_iff]
    intro some
    simp [last _ (List.getLast?_eq_some_getLast some)]

/-- What starts like one trimmed text and ends like another is trimmed. -/
theorem trim_join {s t : List Char} (first : trim s = s) (last : trim t = t) (some : s ≠ [])
    (some' : t ≠ []) (middle : List Char) : trim (s ++ (middle ++ t)) = s ++ (middle ++ t) := by
  rw [trim_eq_self_iff] at first last ⊢
  constructor
  · rw [List.head?_append_of_ne_nil _ some]
    exact first.1
  · rw [List.getLast?_append_of_ne_nil _ (by simp [some']), List.getLast?_append_of_ne_nil _ some']
    exact last.2

/-- How many characters are not whitespace. -/
def solid (s : List Char) : Nat := s.countP (!isWhitespace ·)

@[simp] theorem solid_append (s t : List Char) : solid (s ++ t) = solid s + solid t :=
  List.countP_append

theorem solid_eq_zero {s : List Char} : solid s = 0 ↔ Blank s := by
  simp [solid, Blank, List.countP_eq_zero]

theorem solid_dropWhile (s : List Char) : solid (s.dropWhile isWhitespace) = solid s := by
  have blank : solid (s.takeWhile isWhitespace) = 0 :=
    solid_eq_zero.mpr fun c hc => List.mem_takeWhile_imp hc
  have whole := solid_append (s.takeWhile isWhitespace) (s.dropWhile isWhitespace)
  rw [List.takeWhile_append_dropWhile, blank] at whole
  omega

theorem solid_trim (s : List Char) : solid (trim s) = solid s := by
  have back : ∀ t : List Char, solid (t.rdropWhile isWhitespace) = solid t := by
    intro t
    have := solid_dropWhile t.reverse
    simpa [List.rdropWhile, solid] using this
  rw [trim, back, solid_dropWhile]

/-! ## Splitting once -/

theorem splitOnce_eq_some_iff {s before after : List Char} {p : Char → Bool} :
    splitOnce s p = some (before, after) ↔
      ∃ c, s = before ++ c :: after ∧ p c = true ∧ ∀ d ∈ before, p d = false := by
  unfold splitOnce
  constructor
  · intro h
    split at h
    · cases h
    · rename_i c rest dropped
      cases h
      have gap : p c = true := by
        have := List.head_dropWhile_not (fun c => !p c) (l := s) (by simp [dropped])
        simpa [dropped] using this
      have whole := List.takeWhile_append_dropWhile (p := fun c => !p c) (l := s)
      rw [dropped] at whole
      exact ⟨c, whole.symm, gap, fun d hd => by simpa using List.mem_takeWhile_imp hd⟩
  · rintro ⟨c, rfl, gap, clean⟩
    have clean' : ∀ d ∈ before, (!p d) = true := by simpa using clean
    rw [List.dropWhile_append_of_pos clean', List.takeWhile_append_of_pos clean',
      List.dropWhile_cons_of_neg (by simp [gap]), List.takeWhile_cons_of_neg (by simp [gap])]
    simp

theorem splitOnce_eq_none_iff {s : List Char} {p : Char → Bool} :
    splitOnce s p = none ↔ ∀ c ∈ s, p c = false := by
  have all : s.dropWhile (!p ·) = [] ↔ ∀ c ∈ s, p c = false := by
    rw [List.dropWhile_eq_nil_iff]
    simp
  rw [← all, splitOnce]
  split <;> simp_all

theorem solid_splitOnce {s word tail : List Char}
    (h : splitOnce s isWhitespace = some (word, tail)) : solid s = solid word + solid tail := by
  obtain ⟨c, rfl, gap, -⟩ := splitOnce_eq_some_iff.mp h
  simp [solid, gap]

end RustStr
