import ApexosRv.Json

/-!
# JSON texts are read back

Each token is read back in front of whatever follows it, and from that a value,
by induction on the value; the text itself bounds the rounds the parser needs.
-/

namespace Json

/-! ## Numbers -/

/-- What may follow a number: nothing that would go on with it. -/
def Ends (cs : List Char) : Prop := ∀ c ∈ cs.head?, numeric c = false

theorem ends_cons {c : Char} (other : numeric c = false) (cs : List Char) : Ends (c :: cs) := by
  intro d here
  rw [List.head?_cons, Option.mem_some_iff] at here
  exact here ▸ other

theorem takeWhile_append_ends {ds cs : List Char} (within : ∀ c ∈ ds, numeric c = true)
    (ends : Ends cs) :
    (ds ++ cs).takeWhile numeric = ds ∧ (ds ++ cs).dropWhile numeric = cs := by
  induction ds with
  | nil =>
    cases cs with
    | nil => exact ⟨rfl, rfl⟩
    | cons c cs =>
      have stop : numeric c = false := ends c rfl
      simp [stop]
  | cons d ds ih =>
    obtain ⟨here, later⟩ := List.forall_mem_cons.mp within
    obtain ⟨taken, dropped⟩ := ih later
    simp only [List.cons_append, List.takeWhile_cons, here, ↓reduceIte, taken, List.dropWhile_cons,
      dropped, and_self]

theorem Scan.step_numeric {s t : Scan} {c : Char} (stepped : s.step c = some t) :
    numeric c = true := by
  have zero : c = '0' → c.isDigit = true := by
    rintro rfl
    rfl
  unfold numeric
  cases s <;> grind [Scan.step]

theorem Scan.fold_numeric {cs : List Char} {s t : Scan} (read : cs.foldlM Scan.step s = some t) :
    ∀ c ∈ cs, numeric c = true := by
  induction cs generalizing s with
  | nil => intro c none; cases none
  | cons c cs ih =>
    obtain ⟨s', stepped, later⟩ := Option.bind_eq_some_iff.mp read
    exact List.forall_mem_cons.mpr ⟨step_numeric stepped, ih later⟩

theorem isNumber_numeric {cs : List Char} (number : isNumber cs = true) :
    ∀ c ∈ cs, numeric c = true := by
  obtain ⟨t, read, _⟩ := (Option.any_eq_true _ _).mp number
  exact Scan.fold_numeric read

theorem Scan.fold_digits {cs : List Char} (digits : ∀ c ∈ cs, c.isDigit = true) :
    cs.foldlM Scan.step .digits = some .digits := by
  induction cs with
  | nil => rfl
  | cons c cs ih =>
    obtain ⟨here, later⟩ := List.forall_mem_cons.mp digits
    rw [List.foldlM_cons, Scan.step, if_pos here]
    exact ih later

/-- Digits are a number, with a sign or without, if no zero stands in front of others. -/
theorem isNumber_digits {cs : List Char} (some_digits : cs ≠ [])
    (digits : ∀ c ∈ cs, c.isDigit = true) (head : cs.head? ≠ some '0' ∨ cs.length = 1) :
    isNumber cs = true ∧ isNumber ('-' :: cs) = true := by
  obtain ⟨c, rest, rfl⟩ := List.exists_cons_of_ne_nil some_digits
  obtain ⟨here, later⟩ := List.forall_mem_cons.mp digits
  have unsigned : c ≠ '-' := by
    rintro rfl
    cases here
  by_cases zero : c = '0'
  · have alone : rest = [] := by
      rcases head with other | single
      · exact absurd (congrArg some zero) other
      · exact List.length_eq_zero_iff.mp (Nat.succ.inj single)
    subst zero alone
    decide
  · simp [isNumber, Scan.step, unsigned, zero, here, Scan.fold_digits later, Scan.complete]

theorem isDigit_of_mem {n : Nat} {c : Char} (here : c ∈ Nat.toDigits 10 n) : c.isDigit = true :=
  Nat.isDigit_of_mem_toDigits (by decide) (by decide) here

/-- No zero stands in front of other digits. -/
theorem toDigits_head (n : Nat) :
    (Nat.toDigits 10 n).head? ≠ some '0' ∨ (Nat.toDigits 10 n).length = 1 := by
  induction n using Nat.strongRecOn with
  | ind n ih =>
    rcases Nat.lt_or_ge n 10 with small | large
    · exact .inr (by rw [Nat.toDigits_of_lt_base small]; rfl)
    · left
      rw [Nat.toDigits_of_base_le (by decide) large,
        List.head?_append_of_ne_nil _ Nat.toDigits_ne_nil]
      rcases ih (n / 10) (by omega) with other | single
      · exact other
      · have below : n / 10 < 10 := by
          have := (Nat.length_toDigits_le_iff (n := n / 10) (b := 10) (k := 1) (by decide)
            (by decide)).mp (by omega)
          simpa using this
        rw [Nat.toDigits_of_lt_base below]
        simp
        omega

theorem natural?_toDigits (n : Nat) : natural? (Nat.toDigits 10 n) = some n := by
  have digits : (Nat.toDigits 10 n).all Char.isDigit = true :=
    List.all_eq_true.mpr fun _ here => isDigit_of_mem here
  rw [natural?, if_pos ⟨Nat.toDigits_ne_nil, digits⟩, Nat.ofDigitChars_ten_toDigits]

theorem integer?_unsigned {c : Char} (unsigned : c ≠ '-') (cs : List Char) :
    integer? (c :: cs) = (natural? (c :: cs)).map Int.ofNat := by
  unfold integer?
  split
  · rename_i same
    exact absurd (List.cons.inj same).1 unsigned
  · rfl

theorem printInt_spells (i : Int) :
    isNumber (printInt i) = true ∧ integer? (printInt i) = some i := by
  cases i with
  | ofNat n =>
    obtain ⟨c, rest, digits⟩ :=
      List.exists_cons_of_ne_nil (Nat.toDigits_ne_nil (n := n) (b := 10))
    have unsigned : c ≠ '-' := by
      rintro rfl
      have digit : '-'.isDigit = true := isDigit_of_mem (n := n) (by rw [digits]; simp)
      cases digit
    refine ⟨(isNumber_digits Nat.toDigits_ne_nil (fun _ => isDigit_of_mem) (toDigits_head n)).1, ?_⟩
    rw [printInt, digits, integer?_unsigned unsigned, ← digits, natural?_toDigits]
    rfl
  | negSucc n =>
    refine ⟨(isNumber_digits Nat.toDigits_ne_nil (fun _ => isDigit_of_mem)
      (toDigits_head (n + 1))).2, ?_⟩
    rw [printInt, integer?, natural?_toDigits]
    rfl

/-- The text of a number. -/
def Spells (cs : List Char) (v : Json) : Prop := isNumber cs = true ∧ readNumber cs = some v

theorem spells_num (i : Int) : Spells (printInt i) (num i) := by
  obtain ⟨number, spells⟩ := printInt_spells i
  refine ⟨number, ?_⟩
  unfold readNumber
  rw [dif_pos number]
  split
  · rename_i j same
    rw [Option.some.inj (same.symm.trans spells)]
  · rename_i none
    cases none.symm.trans spells

theorem spells_real (l : Literal) : Spells l.text (real l) := by
  refine ⟨l.number, ?_⟩
  unfold readNumber
  rw [dif_pos l.number]
  split
  · rename_i j same
    cases same.symm.trans l.other
  · rfl

theorem Spells.parse {ds : List Char} {v : Json} (spells : Spells ds v) {cs : List Char}
    (ends : Ends cs) : parseNumber (ds ++ cs) = some (v, cs) := by
  obtain ⟨taken, dropped⟩ := takeWhile_append_ends (isNumber_numeric spells.1) ends
  rw [parseNumber, taken, dropped, spells.2]
  rfl

/-- A number starts with a digit or a sign. -/
theorem Spells.head {ds : List Char} {v : Json} (spells : Spells ds v) :
    ∃ c rest, ds = c :: rest ∧ (c.isDigit = true ∨ c = '-') := by
  obtain ⟨number, _⟩ := spells
  cases ds with
  | nil => cases number
  | cons c rest =>
    refine ⟨c, rest, rfl, ?_⟩
    obtain ⟨t, read, _⟩ := (Option.any_eq_true _ _).mp number
    obtain ⟨s, stepped, _⟩ := Option.bind_eq_some_iff.mp read
    have zero : c = '0' → c.isDigit = true := by
      rintro rfl
      rfl
    grind [Scan.step]

/-! ## Strings -/

theorem unicode_low {n : Nat} (low : n < 32) :
    unicode '0' '0' (Nat.digitChar (n / 16)) (Nat.digitChar (n % 16)) = some (Char.ofNat n) := by
  have all : ∀ n < 32,
      unicode '0' '0' (Nat.digitChar (n / 16)) (Nat.digitChar (n % 16)) = some (Char.ofNat n) := by
    decide
  exact all n low

theorem char_of_toNat {c : Char} {n : Nat} (same : c.toNat = n) : c = Char.ofNat n := by
  rw [← same, Char.ofNat_toNat]

theorem parseString_named {e c : Char} (named : escapes.lookup e = some c) (cs : List Char) :
    parseString ('\\' :: e :: cs) = (parseString cs).map fun (s, rest) => (c :: s, rest) := by
  have other : e ≠ 'u' := by
    rintro rfl
    have none : escapes.lookup 'u' = none := by decide
    rw [none] at named
    cases named
  have reads : parseString ('\\' :: e :: cs) =
      (escapes.lookup e).bind fun c =>
        (parseString cs).bind fun (s, rest) => some (c :: s, rest) := by
    rw [parseString.eq_def]
    split
    · simp_all
    · simp_all
    · simp_all
    · rename_i e' rest _ same
      obtain ⟨rfl, rfl⟩ := List.cons.inj (List.cons.inj same).2
      rfl
    · rename_i c' rest _ _ single same
      exact absurd (List.cons.inj same).2.symm (single e cs (List.cons.inj same).1.symm)
  rw [reads, named]
  cases parseString cs <;> rfl

theorem parseString_plain {c : Char} (quote : c ≠ '"') (backslash : c ≠ '\\')
    (printed : 32 ≤ c.toNat) (cs : List Char) :
    parseString (c :: cs) = (parseString cs).map fun (s, rest) => (c :: s, rest) := by
  have fine : ¬ (c.toNat < 32 ∨ c = '\\') := by
    rintro (low | slash)
    · omega
    · exact backslash slash
  have reads : parseString (c :: cs) =
      if c.toNat < 32 ∨ c = '\\' then none
      else (parseString cs).bind fun (s, rest) => some (c :: s, rest) := by
    rw [parseString.eq_def]
    split
    · simp_all
    · simp_all
    · simp_all
    · simp_all
    · rename_i _ rest _ _ _ same
      obtain ⟨rfl, rfl⟩ := List.cons.inj same
      rfl
  rw [reads, if_neg fine]
  cases parseString cs <;> rfl

theorem parseString_escape (c : Char) (cs : List Char) :
    parseString (escape c ++ cs) = (parseString cs).map fun (s, rest) => (c :: s, rest) := by
  unfold escape
  split
  · rename_i quote
    exact parseString_named (by subst quote; rfl) cs
  split
  · rename_i backslash
    exact parseString_named (by subst backslash; rfl) cs
  split
  · rename_i same
    exact parseString_named (by rw [char_of_toNat same]; rfl) cs
  split
  · rename_i same
    exact parseString_named (by rw [char_of_toNat same]; rfl) cs
  split
  · rename_i same
    exact parseString_named (by rw [char_of_toNat same]; rfl) cs
  split
  · rename_i same
    exact parseString_named (by rw [char_of_toNat same]; rfl) cs
  split
  · rename_i same
    exact parseString_named (by rw [char_of_toNat same]; rfl) cs
  split
  · rename_i low
    rw [List.cons_append, parseString.eq_def]
    simp only [List.cons_append, List.nil_append, unicode_low low, Char.ofNat_toNat]
  · rename_i quote backslash _ _ _ _ _ low
    exact parseString_plain quote backslash (Nat.le_of_not_lt low) cs

theorem parseString_quoted (s cs : List Char) :
    parseString (s.flatMap escape ++ '"' :: cs) = some (s, cs) := by
  induction s with
  | nil => simp [parseString]
  | cons c s ih =>
    rw [List.flatMap_cons, List.append_assoc, parseString_escape, ih]
    rfl

/-! ## Values -/

theorem skip_cons {c : Char} (solid : blank c = false) (cs : List Char) :
    skip (c :: cs) = c :: cs := by
  simp [skip, solid]

/-- A first character that no other value has. -/
theorem number_solid {c : Char} (first : c.isDigit = true ∨ c = '-') :
    blank c = false ∧ c ≠ ']' ∧ c ≠ '"' ∧ c ≠ '[' ∧ c ≠ '\x7b' ∧ c ≠ 'n' ∧ c ≠ 't' ∧ c ≠ 'f' := by
  rcases first with digit | rfl
  · have other : ∀ d : Char, d.isDigit = false → c ≠ d := by
      rintro d no rfl
      exact absurd (digit.symm.trans no) (by decide)
    refine ⟨?_, other _ (by decide), other _ (by decide), other _ (by decide), other _ (by decide),
      other _ (by decide), other _ (by decide), other _ (by decide)⟩
    simp [blank, other ' ' (by decide), other '\t' (by decide), other '\n' (by decide),
      other '\r' (by decide)]
  · decide

theorem Spells.print_head {ds : List Char} {v : Json} (spells : Spells ds v) :
    ∃ c rest, ds = c :: rest ∧ blank c = false ∧ c ≠ ']' := by
  obtain ⟨c, rest, text, first⟩ := spells.head
  obtain ⟨solid, more, _⟩ := number_solid first
  exact ⟨c, rest, text, solid, more⟩

/-- A text starts with a character that is not blank and does not end a list. -/
theorem print_head (v : Json) :
    ∃ c rest, print v = c :: rest ∧ blank c = false ∧ c ≠ ']' := by
  cases v with
  | null => exact ⟨'n', _, rfl, rfl, by decide⟩
  | bool b =>
    cases b with
    | true => exact ⟨'t', _, rfl, rfl, by decide⟩
    | false => exact ⟨'f', _, rfl, rfl, by decide⟩
  | num i => exact (spells_num i).print_head
  | real l => exact (spells_real l).print_head
  | str s => exact ⟨'"', _, rfl, rfl, by decide⟩
  | arr items => cases items <;> exact ⟨'[', _, rfl, rfl, by decide⟩
  | obj fields => cases fields <;> exact ⟨'\x7b', _, rfl, rfl, by decide⟩

theorem print_length_pos (v : Json) : 0 < (print v).length := by
  obtain ⟨c, rest, text, _⟩ := print_head v
  rw [text]
  exact Nat.succ_pos _

theorem parseKey_quoted (key cs : List Char) :
    parseKey (quote key ++ ':' :: cs) = some (key, cs) := by
  have text : quote key ++ ':' :: cs = '"' :: (key.flatMap escape ++ '"' :: ':' :: cs) := by
    simp [quote]
  rw [text, parseKey, skip_cons rfl]
  simp only [parseString_quoted, Option.bind_eq_bind, Option.bind_some, skip_cons (c := ':') rfl]

theorem parseWord_self (word : List Char) (v : Json) (cs : List Char) :
    parseWord word v (word ++ cs) = some (v, cs) := by
  have starts : word.isPrefixOf (word ++ cs) = true :=
    List.isPrefixOf_iff_prefix.mpr (List.prefix_append _ _)
  simp [parseWord, starts]

/-! What the first character of a value decides. -/

theorem parseValue_quote (fuel : Nat) (cs : List Char) :
    parseValue (fuel + 1) ('"' :: cs) = (parseString cs).map fun (s, rest) => (str s, rest) := by
  rw [parseValue, skip_cons rfl]
  rfl

theorem parseValue_items (fuel : Nat) {c : Char} (solid : blank c = false) (more : c ≠ ']')
    (cs : List Char) :
    parseValue (fuel + 1) ('[' :: c :: cs) =
      (parseItems fuel (c :: cs)).map fun (items, rest) => (arr items, rest) := by
  rw [parseValue, skip_cons rfl]
  simp [skip_cons solid, more]

theorem parseValue_fields (fuel : Nat) (cs : List Char) :
    parseValue (fuel + 1) ('\x7b' :: '"' :: cs) =
      (parseFields fuel ('"' :: cs)).map fun (fields, rest) => (obj fields, rest) := by
  rw [parseValue, skip_cons rfl]
  simp [skip_cons (c := '"') rfl]

theorem Spells.parseValue {ds : List Char} {v : Json} (spells : Spells ds v) (fuel : Nat)
    {cs : List Char} (ends : Ends cs) : Json.parseValue (fuel + 1) (ds ++ cs) = some (v, cs) := by
  have read := spells.parse ends
  obtain ⟨c, rest, rfl, first⟩ := spells.head
  obtain ⟨solid, _, quote, list, object, n, t, f⟩ := number_solid first
  rw [List.cons_append] at read ⊢
  rw [Json.parseValue, skip_cons solid]
  simp only [quote, list, object, n, t, f, ↓reduceIte, read]

/-- Values, the rest of a list and the rest of an object are read back in as
many rounds as their texts have characters. -/
theorem parse_texts (fuel : Nat) :
    (∀ v cs, Ends cs → (print v).length ≤ fuel →
      parseValue fuel (print v ++ cs) = some (v, cs)) ∧
    (∀ v rest cs, (print v).length + (printItems rest).length < fuel →
      parseItems fuel (print v ++ (printItems rest ++ ']' :: cs)) = some (v :: rest, cs)) ∧
    (∀ key v rest cs, (print v).length + (printFields rest).length < fuel →
      parseFields fuel (quote key ++ ':' :: (print v ++ (printFields rest ++ '\x7d' :: cs))) =
        some ((key, v) :: rest, cs)) := by
  induction fuel with
  | zero =>
    refine ⟨fun v cs _ none => ?_, fun _ _ _ none => by omega, fun _ _ _ _ none => by omega⟩
    have := print_length_pos v
    omega
  | succ fuel ih =>
    obtain ⟨values, items, fields⟩ := ih
    refine ⟨?_, ?_, ?_⟩
    · intro v cs ends enough
      cases v with
      | null =>
        show parseValue (fuel + 1) ("null".toList ++ cs) = _
        rw [← parseWord_self "null".toList null cs, parseValue]
        rfl
      | bool b =>
        cases b with
        | true =>
          show parseValue (fuel + 1) ("true".toList ++ cs) = _
          rw [← parseWord_self "true".toList (bool true) cs, parseValue]
          rfl
        | false =>
          show parseValue (fuel + 1) ("false".toList ++ cs) = _
          rw [← parseWord_self "false".toList (bool false) cs, parseValue]
          rfl
      | num i => exact (spells_num i).parseValue fuel ends
      | real l => exact (spells_real l).parseValue fuel ends
      | str s =>
        have text : print (str s) ++ cs = '"' :: (s.flatMap escape ++ '"' :: cs) := by
          simp [print, quote]
        rw [text, parseValue_quote, parseString_quoted]
        rfl
      | arr all =>
        cases all with
        | nil => rfl
        | cons v rest =>
          obtain ⟨c, later, head, solid, more⟩ := print_head v
          have text : print (arr (v :: rest)) ++ cs =
              '[' :: (print v ++ (printItems rest ++ ']' :: cs)) := by
            simp [print]
          have length : (print (arr (v :: rest))).length =
              (print v).length + (printItems rest).length + 2 := by
            simp [print]
            omega
          have read := items v rest cs (by omega)
          rw [head, List.cons_append] at read
          rw [text, head, List.cons_append, parseValue_items fuel solid more, read]
          rfl
      | obj all =>
        cases all with
        | nil => rfl
        | cons field rest =>
          obtain ⟨key, v⟩ := field
          have text : print (obj ((key, v) :: rest)) ++ cs =
              '\x7b' :: (quote key ++ ':' :: (print v ++ (printFields rest ++ '\x7d' :: cs))) := by
            simp [print]
          have length : (print (obj ((key, v) :: rest))).length =
              (quote key).length + (print v).length + (printFields rest).length + 3 := by
            simp [print]
            omega
          have read := fields key v rest cs (by omega)
          rw [quote, List.cons_append, List.cons_append] at read
          rw [text, quote, List.cons_append, List.cons_append, parseValue_fields, read]
          rfl
    · intro v rest cs enough
      have positive := print_length_pos v
      cases rest with
      | nil =>
        have read := values v (']' :: cs) (ends_cons rfl cs) (by omega)
        rw [printItems, List.nil_append, parseItems, read]
        simp [skip_cons (c := ']') rfl]
      | cons w rest =>
        have text : printItems (w :: rest) ++ ']' :: cs =
            ',' :: (print w ++ (printItems rest ++ ']' :: cs)) := by
          simp [printItems]
        have length : (printItems (w :: rest)).length =
            (print w).length + (printItems rest).length + 1 := by
          simp [printItems]
        have read := values v (',' :: (print w ++ (printItems rest ++ ']' :: cs)))
          (ends_cons rfl _) (by omega)
        rw [text, parseItems, read]
        simp [skip_cons (c := ',') rfl, items w rest cs (by omega)]
    · intro key v rest cs enough
      have positive := print_length_pos v
      cases rest with
      | nil =>
        have read := values v ('\x7d' :: cs) (ends_cons rfl cs) (by omega)
        rw [printFields, List.nil_append, parseFields, parseKey_quoted]
        simp [read, skip_cons (c := '\x7d') rfl]
      | cons field rest =>
        obtain ⟨key', w⟩ := field
        have text : printFields ((key', w) :: rest) ++ '\x7d' :: cs =
            ',' :: (quote key' ++ ':' :: (print w ++ (printFields rest ++ '\x7d' :: cs))) := by
          simp [printFields]
        have length : (printFields ((key', w) :: rest)).length =
            (quote key').length + (print w).length + (printFields rest).length + 2 := by
          simp [printFields]
          omega
        have read := values v
          (',' :: (quote key' ++ ':' :: (print w ++ (printFields rest ++ '\x7d' :: cs))))
          (ends_cons rfl _) (by omega)
        rw [text, parseFields, parseKey_quoted]
        simp [read, skip_cons (c := ',') rfl, fields key' w rest cs (by omega)]

/-- **What was written is read back.** -/
theorem parse_print (v : Json) : parse (print v) = some v := by
  have read := (parse_texts ((print v).length + 1)).1 v [] (fun c none => by simp at none)
    (Nat.le_succ _)
  rw [List.append_nil] at read
  simp [parse, read, skip]

/-! ## What a text holds -/

theorem printable_of_all {cs : List Char} (all : cs.all (32 ≤ ·.toNat) = true) :
    ∀ c ∈ cs, 32 ≤ c.toNat := by
  intro c here
  simpa using List.all_eq_true.mp all c here

theorem escape_printable (c : Char) : ∀ d ∈ escape c, 32 ≤ d.toNat := by
  by_cases control : c.toNat < 32
  · have all : ∀ n < 32, (escape (Char.ofNat n)).all (32 ≤ ·.toNat) = true := by decide
    have here := printable_of_all (all c.toNat control)
    rwa [Char.ofNat_toNat] at here
  · have alone : escape c = ['\\', '"'] ∨ escape c = ['\\', '\\'] ∨ escape c = [c] := by
      unfold escape
      grind
    rcases alone with quote | slash | alone
    · rw [quote]
      exact printable_of_all rfl
    · rw [slash]
      exact printable_of_all rfl
    · rw [alone]
      simpa using control

theorem quote_printable (s : List Char) : ∀ c ∈ quote s, 32 ≤ c.toNat := by
  intro c here
  simp only [quote, List.mem_append, List.mem_cons, List.mem_flatMap, List.not_mem_nil,
    or_false] at here
  rcases here with (rfl | ⟨d, _, here⟩) | rfl
  · decide
  · exact escape_printable d c here
  · decide

theorem numeric_printable {c : Char} (within : numeric c = true) : 32 ≤ c.toNat := by
  simp only [numeric, Bool.or_eq_true, decide_eq_true_eq] at within
  rcases within with ((((digit | rfl) | rfl) | rfl) | rfl) | rfl
  · simp only [Char.isDigit, Bool.and_eq_true, decide_eq_true_eq] at digit
    have low : 48 ≤ c.toNat := digit.1
    omega
  all_goals decide

mutual

/-- Control characters are escaped. -/
theorem print_printable : ∀ (v : Json), ∀ c ∈ print v, 32 ≤ c.toNat
  | null => printable_of_all rfl
  | bool true => printable_of_all rfl
  | bool false => printable_of_all rfl
  | num i => fun c here => numeric_printable (isNumber_numeric (spells_num i).1 c here)
  | real l => fun c here => numeric_printable (isNumber_numeric l.number c here)
  | str s => quote_printable s
  | arr [] => printable_of_all rfl
  | arr (v :: rest) => by
    simp only [print, List.mem_append, List.mem_cons, List.not_mem_nil, or_false]
    rintro c (((rfl | here) | here) | rfl)
    · decide
    · exact print_printable v c here
    · exact printItems_printable rest c here
    · decide
  | obj [] => printable_of_all rfl
  | obj ((key, v) :: rest) => by
    simp only [print, List.mem_append, List.mem_cons, List.not_mem_nil, or_false]
    rintro c ((((rfl | here) | (rfl | here)) | here) | rfl)
    · decide
    · exact quote_printable key c here
    · decide
    · exact print_printable v c here
    · exact printFields_printable rest c here
    · decide

theorem printItems_printable : ∀ (items : List Json), ∀ c ∈ printItems items, 32 ≤ c.toNat
  | [] => by simp [printItems]
  | v :: rest => by
    simp only [printItems, List.mem_append, List.mem_cons]
    rintro c ((rfl | here) | here)
    · decide
    · exact print_printable v c here
    · exact printItems_printable rest c here

theorem printFields_printable :
    ∀ (fields : List (List Char × Json)), ∀ c ∈ printFields fields, 32 ≤ c.toNat
  | [] => by simp [printFields]
  | (key, v) :: rest => by
    simp only [printFields, List.mem_append, List.mem_cons]
    rintro c (((rfl | here) | (rfl | here)) | here)
    · decide
    · exact quote_printable key c here
    · decide
    · exact print_printable v c here
    · exact printFields_printable rest c here

end

end Json
