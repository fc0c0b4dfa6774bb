import DirectoryAccess.Filter.Text

/-!
# Values in the text of a filter

The text of a value has no sign of the notation in it, and a backslash there always
stands in front of two hexadecimal digits (`IsEscaped`), from which the value can be
read again (`unescape_escapeOctets`). Where a value ends is therefore told by the sign
that comes next. So two filters of one form, which differ in nothing but their values,
have one text only if they are equal, and this is so wherever the text of a filter
stands, with whatever behind it (`Filter.eq_of_chars_append`).
-/

namespace DirectoryAccess

/-! ## Escapes -/

/-- The lower-case hexadecimal digits, in order. -/
def hexDigits : List Char :=
  ['0', '1', '2', '3', '4', '5', '6', '7', '8', '9', 'a', 'b', 'c', 'd', 'e', 'f']

/-- The octets that a text stands for, where a backslash and two hexadecimal digits are one octet
and any other character is an octet of its own. -/
def unescape : List Char → Octets
  | [] => []
  | '\\' :: high :: low :: rest =>
    UInt8.ofNat (hexDigits.idxOf high * 16 + hexDigits.idxOf low) :: unescape rest
  | c :: rest => UInt8.ofNat c.toNat :: unescape rest

/-- A character that the text of a value may have. -/
structure IsAllowed (c : Char) : Prop where
  /-- The character is one of ASCII. -/
  lt : c.toNat < 0x80
  /-- It is no parenthesis, no asterisk and not the null character. -/
  not_sign : c ∉ ['(', ')', '*', '\x00']

instance (c : Char) : Decidable (IsAllowed c) :=
  decidable_of_iff (c.toNat < 0x80 ∧ c ∉ ['(', ')', '*', '\x00'])
    ⟨fun h => ⟨h.1, h.2⟩, fun h => ⟨h.lt, h.not_sign⟩⟩

/-- A text in which nothing can be mistaken for the notation. -/
structure IsEscaped (text : List Char) : Prop where
  /-- The text is one of ASCII, without a sign of the notation. -/
  isAllowed : ∀ c ∈ text, IsAllowed c
  /-- Behind every backslash there are two hexadecimal digits. -/
  digits : ∀ front behind, text = front ++ '\\' :: behind →
    ∃ high low rest, behind = high :: low :: rest ∧ high ∈ hexDigits ∧ low ∈ hexDigits

/-- Hexadecimal digits need no escape, and the backslash is none of them. -/
theorem isAllowed_of_mem_hexDigits {c : Char} (h : c ∈ hexDigits) :
    IsAllowed c ∧ c ≠ '\\' := by
  have hall : (hexDigits.all fun c => decide (IsAllowed c ∧ c ≠ '\\')) = true := by decide
  exact of_decide_eq_true (List.all_eq_true.mp hall c h)

/-- A hexadecimal digit is found in the list of them at the number that it stands for. -/
theorem hexDigit_mem_hexDigits : ∀ n < 16, hexDigit n ∈ hexDigits ∧
    hexDigits.idxOf (hexDigit n) = n := by
  decide

/-- A text may have any allowed character but the backslash in front. -/
theorem IsEscaped.cons {c : Char} {text : List Char} (hc : IsAllowed c) (hne : c ≠ '\\')
    (h : IsEscaped text) : IsEscaped (c :: text) := by
  constructor
  · exact List.forall_mem_cons.mpr ⟨hc, h.isAllowed⟩
  · intro front behind hfront
    cases front with
    | nil => exact absurd (List.cons.inj hfront).1 hne
    | cons d front => exact h.digits front behind (List.cons.inj hfront).2

/-- A text may have a backslash with two digits in front. -/
theorem IsEscaped.escape {high low : Char} {text : List Char} (hhigh : high ∈ hexDigits)
    (hlow : low ∈ hexDigits) (h : IsEscaped text) : IsEscaped ('\\' :: high :: low :: text) := by
  have hrest : IsEscaped (high :: low :: text) := by
    obtain ⟨hhigh, hhigh'⟩ := isAllowed_of_mem_hexDigits hhigh
    obtain ⟨hlow, hlow'⟩ := isAllowed_of_mem_hexDigits hlow
    exact (h.cons hlow hlow').cons hhigh hhigh'
  constructor
  · exact List.forall_mem_cons.mpr ⟨by decide, hrest.isAllowed⟩
  · intro front behind hfront
    cases front with
    | nil => exact ⟨high, low, text, (List.cons.inj hfront).2.symm, hhigh, hlow⟩
    | cons d front => exact hrest.digits front behind (List.cons.inj hfront).2

theorem unescape_cons {c : Char} (h : c ≠ '\\') (rest : List Char) :
    unescape (c :: rest) = UInt8.ofNat c.toNat :: unescape rest := by
  rw [unescape]
  rintro high low rest' rfl
  exact absurd rfl h

/-- The octets of ASCII that are kept are allowed characters. -/
theorem isAllowed_ofNat : ∀ n < 128, UInt8.ofNat n ∉ [0x2A, 0x28, 0x29, 0x5C, 0x00] →
    IsAllowed (Char.ofNat n) ∧ Char.ofNat n ≠ '\\' ∧ (Char.ofNat n).toNat = n := by
  decide +kernel

/-- An octet is written as itself, if that is allowed and no backslash, and otherwise as a backslash
with its two digits. -/
theorem escapeOctet_cases (b : UInt8) :
    (∃ c, escapeOctet b = [c] ∧ IsAllowed c ∧ c ≠ '\\' ∧ UInt8.ofNat c.toNat = b) ∨
      ∃ high low, escapeOctet b = ['\\', high, low] ∧ high ∈ hexDigits ∧ low ∈ hexDigits ∧
        UInt8.ofNat (hexDigits.idxOf high * 16 + hexDigits.idxOf low) = b := by
  have hb := b.toNat_lt
  rw [escapeOctet]
  split
  · obtain ⟨hhigh, hhigh'⟩ := hexDigit_mem_hexDigits (b.toNat / 16) (by omega)
    obtain ⟨hlow, hlow'⟩ := hexDigit_mem_hexDigits (b.toNat % 16) (by omega)
    refine .inr ⟨_, _, rfl, hhigh, hlow, ?_⟩
    rw [hhigh', hlow', Nat.div_add_mod', UInt8.ofNat_toNat]
  · rename_i hkept
    simp only [Bool.or_eq_true, decide_eq_true_eq, not_or] at hkept
    obtain ⟨⟨⟨⟨⟨hstar, hopen⟩, hclose⟩, hbackslash⟩, hnull⟩, hhigh⟩ := hkept
    have hlt : b.toNat < 128 := Nat.lt_of_not_le fun hle => hhigh (UInt8.le_iff_toNat_le.mpr hle)
    have hnone : b ∉ [0x2A, 0x28, 0x29, 0x5C, 0x00] := by
      simp only [List.mem_cons, List.not_mem_nil, or_false, not_or]
      exact ⟨hstar, hopen, hclose, hbackslash, hnull⟩
    have hchar := isAllowed_ofNat b.toNat hlt
    rw [UInt8.ofNat_toNat] at hchar
    obtain ⟨hallowed, hne, hback⟩ := hchar hnone
    refine .inl ⟨_, rfl, hallowed, hne, ?_⟩
    rw [hback, UInt8.ofNat_toNat]

theorem escapeOctets_cons (b : UInt8) (value : Octets) :
    escapeOctets (b :: value) = escapeOctet b ++ escapeOctets value := List.flatMap_cons

/-- Nothing in the text of a value can be mistaken for the notation. -/
theorem isEscaped_escapeOctets (value : Octets) : IsEscaped (escapeOctets value) := by
  induction value with
  | nil => exact ⟨nofun, fun front behind h => absurd h.symm (by simp [escapeOctets])⟩
  | cons b value ih =>
      rw [escapeOctets_cons]
      obtain ⟨c, hc, hallowed, hne, -⟩ | ⟨high, low, hc, hhigh, hlow, -⟩ := escapeOctet_cases b
      · rw [hc]
        exact ih.cons hallowed hne
      · rw [hc]
        exact ih.escape hhigh hlow

/-- A value is read again from its text. -/
theorem unescape_escapeOctets (value : Octets) : unescape (escapeOctets value) = value := by
  induction value with
  | nil => rfl
  | cons b value ih =>
      rw [escapeOctets_cons]
      obtain ⟨c, hc, -, hne, hb⟩ | ⟨high, low, hc, -, -, hb⟩ := escapeOctet_cases b
      · rw [hc, List.singleton_append, unescape_cons hne, hb, ih]
      · rw [hc, List.cons_append, List.cons_append, List.singleton_append, unescape, hb, ih]

/-! ## Ends of values -/

section Ends

variable {α : Type} {v w : Octets} {c : Char} {r s : List Char}

/-- What stands in front of the first occurrence of a sign, and what behind it, is settled. -/
theorem append_cons_inj {front front' behind behind' : List α} {a : α} (h : a ∉ front)
    (h' : a ∉ front') (heq : front ++ a :: behind = front' ++ a :: behind') :
    front = front' ∧ behind = behind' := by
  induction front generalizing front' with
  | nil =>
      cases front' with
      | nil => exact ⟨rfl, (List.cons.inj heq).2⟩
      | cons d front' =>
          obtain ⟨rfl, -⟩ := List.cons.inj heq
          exact absurd (List.mem_cons_self ..) h'
  | cons d front ih =>
      cases front' with
      | nil =>
          obtain ⟨rfl, -⟩ := List.cons.inj heq
          exact absurd (List.mem_cons_self ..) h
      | cons d' front' =>
          obtain ⟨rfl, htail⟩ := List.cons.inj heq
          obtain ⟨rfl, hbehind⟩ := ih (fun hmem => h (List.mem_cons_of_mem _ hmem))
            (fun hmem => h' (List.mem_cons_of_mem _ hmem)) htail
          exact ⟨rfl, hbehind⟩

/-- A value in front of a sign that is in no escaped text is told by the text, because it ends where
the sign first occurs. -/
theorem escapeOctets_append_inj (hc : ¬ IsAllowed c)
    (h : escapeOctets v ++ c :: r = escapeOctets w ++ c :: s) : v = w ∧ r = s := by
  have hnone (value : Octets) : c ∉ escapeOctets value :=
    fun hmem => hc ((isEscaped_escapeOctets value).isAllowed c hmem)
  obtain ⟨hvalue, hrest⟩ := append_cons_inj (hnone v) (hnone w) h
  refine ⟨?_, hrest⟩
  rw [← unescape_escapeOctets v, hvalue, unescape_escapeOctets]

/-- A value that may be missing is told by the text where it is known whether it is missing. -/
theorem escapeOctets_getD_append_inj {v? w? : Option Octets} (hc : ¬ IsAllowed c)
    (hsome : v?.isSome = w?.isSome)
    (h : escapeOctets (v?.getD []) ++ c :: r = escapeOctets (w?.getD []) ++ c :: s) :
    v? = w? ∧ r = s := by
  obtain ⟨hvalue, hrest⟩ := escapeOctets_append_inj hc h
  refine ⟨?_, hrest⟩
  cases v? with
  | none =>
      cases w? with
      | none => rfl
      | some w => cases hsome
  | some v =>
      cases w? with
      | none => cases hsome
      | some w => exact congrArg some hvalue

/-- Values with an asterisk behind each are told by the text where their number is known. -/
theorem flatMap_escapeOctets_append_inj {parts parts' : List Octets}
    (hlength : parts.length = parts'.length)
    (h : parts.flatMap (fun part => escapeOctets part ++ ['*']) ++ r =
      parts'.flatMap (fun part => escapeOctets part ++ ['*']) ++ s) : parts = parts' ∧ r = s := by
  induction parts generalizing parts' with
  | nil =>
      obtain rfl : parts' = [] := List.length_eq_zero_iff.mp hlength.symm
      exact ⟨rfl, h⟩
  | cons part parts ih =>
      cases parts' with
      | nil => cases hlength
      | cons part' parts' =>
          simp only [List.flatMap_cons, List.append_assoc, List.singleton_append] at h
          obtain ⟨rfl, hrest⟩ := escapeOctets_append_inj (by decide) h
          obtain ⟨rfl, hbehind⟩ := ih (Nat.succ.inj hlength) hrest
          exact ⟨rfl, hbehind⟩

end Ends

/-! ## Filters of one form -/

/-- The pattern with each of its parts replaced. -/
def SubstringPattern.mapParts (f : Octets → Octets) (pattern : SubstringPattern) :
    SubstringPattern :=
  ⟨pattern.initial.map f, pattern.any.map f, pattern.final.map f⟩

namespace Filter

mutual

/-- The filter with each asserted value and each part of one replaced. -/
def mapValues (f : Octets → Octets) : Filter → Filter
  | all filters => all (mapValuesAll f filters)
  | any filters => any (mapValuesAll f filters)
  | not filter => not (mapValues f filter)
  | compare comparison description value => compare comparison description (f value)
  | substrings description pattern => substrings description (pattern.mapParts f)
  | present description => present description
  | extensible assertion => extensible { assertion with value := f assertion.value }

/-- Filters with each asserted value and each part of one replaced. -/
def mapValuesAll (f : Octets → Octets) : List Filter → List Filter
  | [] => []
  | filter :: filters => mapValues f filter :: mapValuesAll f filters

end

/-- Two filters that are the same but for the octets of their values and parts of values. -/
def SameForm (x y : Filter) : Prop := x.mapValues (fun _ => []) = y.mapValues (fun _ => [])

instance (x y : Filter) : Decidable (SameForm x y) :=
  inferInstanceAs (Decidable (x.mapValues (fun _ => []) = y.mapValues (fun _ => [])))

/-- Patterns with the same parts present are told by the text. -/
theorem pattern_eq_of_append {pattern pattern' : SubstringPattern} {r s : List Char}
    (hform : pattern.mapParts (fun _ => []) = pattern'.mapParts (fun _ => []))
    (h : escapeOctets (pattern.initial.getD []) ++ '*' ::
        (pattern.any.flatMap (fun part => escapeOctets part ++ ['*']) ++
          (escapeOctets (pattern.final.getD []) ++ ')' :: r)) =
      escapeOctets (pattern'.initial.getD []) ++ '*' ::
        (pattern'.any.flatMap (fun part => escapeOctets part ++ ['*']) ++
          (escapeOctets (pattern'.final.getD []) ++ ')' :: s))) :
    pattern = pattern' ∧ r = s := by
  obtain ⟨hinitial, hany, hfinal⟩ := SubstringPattern.mk.inj hform
  have hpresent {v? w? : Option Octets}
      (hmap : v?.map (fun _ => ([] : Octets)) = w?.map fun _ => []) : v?.isSome = w?.isSome := by
    simpa only [Option.isSome_map] using congrArg Option.isSome hmap
  have hlength : pattern.any.length = pattern'.any.length := by
    simpa only [List.length_map] using congrArg List.length hany
  obtain ⟨hinitial, h⟩ := escapeOctets_getD_append_inj (by decide) (hpresent hinitial) h
  obtain ⟨hany, h⟩ := flatMap_escapeOctets_append_inj hlength h
  obtain ⟨hfinal, h⟩ := escapeOctets_getD_append_inj (by decide) (hpresent hfinal) h
  exact ⟨by rw [SubstringPattern.mk.injEq]; exact ⟨hinitial, hany, hfinal⟩, h⟩

mutual

/-- Filters of one form are told by the text, whatever stands behind them. -/
theorem eq_of_chars_append : ∀ {x y : Filter} {r s : List Char}, SameForm x y →
    chars x ++ r = chars y ++ s → x = y ∧ r = s
  | all xs, y, r, s, hform, h => by
      cases y <;> simp only [SameForm, mapValues, reduceCtorEq, all.injEq] at hform
      simp only [chars, List.cons_append, List.append_assoc, List.cons.injEq, true_and] at h
      obtain ⟨rfl, hrest⟩ := eqAll_of_charsAll_append hform h
      exact ⟨rfl, (List.cons.inj hrest).2⟩
  | any xs, y, r, s, hform, h => by
      cases y <;> simp only [SameForm, mapValues, reduceCtorEq, any.injEq] at hform
      simp only [chars, List.cons_append, List.append_assoc, List.cons.injEq, true_and] at h
      obtain ⟨rfl, hrest⟩ := eqAll_of_charsAll_append hform h
      exact ⟨rfl, (List.cons.inj hrest).2⟩
  | not x, y, r, s, hform, h => by
      cases y <;> simp only [SameForm, mapValues, reduceCtorEq, not.injEq] at hform
      simp only [chars, List.cons_append, List.append_assoc, List.cons.injEq, true_and] at h
      obtain ⟨rfl, hrest⟩ := eq_of_chars_append hform h
      exact ⟨rfl, (List.cons.inj hrest).2⟩
  | compare comparison description value, y, r, s, hform, h => by
      cases y <;> simp only [SameForm, mapValues, reduceCtorEq, compare.injEq] at hform
      obtain ⟨rfl, rfl, -⟩ := hform
      simp only [chars, List.cons_append, List.append_assoc, List.cons.injEq, true_and,
        List.append_cancel_left_eq, List.nil_append] at h
      obtain ⟨rfl, hrest⟩ := escapeOctets_append_inj (by decide) h
      exact ⟨rfl, hrest⟩
  | substrings description pattern, y, r, s, hform, h => by
      cases y <;> simp only [SameForm, mapValues, reduceCtorEq, substrings.injEq] at hform
      obtain ⟨rfl, hform⟩ := hform
      simp only [chars, List.cons_append, List.append_assoc, List.cons.injEq, true_and,
        List.append_cancel_left_eq, List.nil_append] at h
      obtain ⟨rfl, hrest⟩ := pattern_eq_of_append hform h
      exact ⟨rfl, hrest⟩
  | present description, y, r, s, hform, h => by
      cases y <;> simp only [SameForm, mapValues, reduceCtorEq, present.injEq] at hform
      obtain rfl := hform
      exact ⟨rfl, List.append_cancel_left h⟩
  | extensible assertion, y, r, s, hform, h => by
      cases y <;> simp only [SameForm, mapValues, reduceCtorEq, extensible.injEq] at hform
      rename_i assertion'
      obtain ⟨rule, description, value, dnAttributes⟩ := assertion
      obtain ⟨rule', description', value', dnAttributes'⟩ := assertion'
      simp only [ExtensibleMatch.mk.injEq] at hform
      obtain ⟨rfl, rfl, -, rfl⟩ := hform
      simp only [chars, List.cons_append, List.append_assoc, List.cons.injEq, true_and,
        List.append_cancel_left_eq, List.nil_append] at h
      obtain ⟨rfl, hrest⟩ := escapeOctets_append_inj (by decide) h
      exact ⟨rfl, hrest⟩

/-- Lists of filters of the same form that are printed alike, whatever comes behind them, are
equal. -/
theorem eqAll_of_charsAll_append : ∀ {xs ys : List Filter} {r s : List Char},
    mapValuesAll (fun _ => []) xs = mapValuesAll (fun _ => []) ys →
    charsAll xs ++ r = charsAll ys ++ s → xs = ys ∧ r = s
  | [], [], r, s, _, h => ⟨rfl, h⟩
  | [], y :: ys, r, s, hform, _ => by simp only [mapValuesAll, reduceCtorEq] at hform
  | x :: xs, [], r, s, hform, _ => by simp only [mapValuesAll, reduceCtorEq] at hform
  | x :: xs, y :: ys, r, s, hform, h => by
      simp only [mapValuesAll, List.cons.injEq] at hform
      simp only [charsAll, List.append_assoc] at h
      obtain ⟨rfl, hrest⟩ := eq_of_chars_append hform.1 h
      obtain ⟨rfl, hbehind⟩ := eqAll_of_charsAll_append hform.2 hrest
      exact ⟨rfl, hbehind⟩

end

/-- **Values cannot forge the notation.** The text of any value is ASCII without the signs of the
notation, every backslash in it stands in front of two hexadecimal digits, and the value is read
again from it. So two filters that differ in nothing but the octets of their values are equal if
their texts are. -/
theorem values_forge_nothing :
    (∀ value, IsEscaped (escapeOctets value) ∧ unescape (escapeOctets value) = value) ∧
      ∀ x y : Filter, SameForm x y → x.text = y.text → x = y := by
  constructor
  · intro value
    exact ⟨isEscaped_escapeOctets value, unescape_escapeOctets value⟩
  · intro x y hform htext
    have hchars : chars x ++ [] = chars y ++ [] := by
      rw [text, text, String.ofList_inj] at htext
      rw [htext]
    exact (eq_of_chars_append hform hchars).1

/-- A filter for values that begin with an asterisk and have a parenthesis in them. -/
def signFilter : Filter := .not (.substrings "cn" ⟨some [0x2A], [[0x29, 0x5C]], none⟩)

/-- The same filter with values that are spelled like the text of the first ones. -/
def spelledFilter : Filter :=
  .not (.substrings "cn" ⟨some [0x5C, 0x32, 0x61], [[0x5C, 0x32, 0x39, 0x5C, 0x35, 0x63]], none⟩)

/-- A filter and the one whose values are spelled as its own are printed have different texts. -/
theorem values_forge_nothing_signFilter :
    signFilter.text = "(!(cn=\\2a*\\29\\5c*))" ∧
      unescape (escapeOctets [0x29, 0x5C]) = [0x29, 0x5C] ∧
      SameForm signFilter spelledFilter ∧ signFilter.text ≠ spelledFilter.text ∧
      signFilter = signFilter.mapValues fun value => unescape (escapeOctets value) := by
  obtain ⟨hvalues, hfilters⟩ := values_forge_nothing
  have hform : SameForm signFilter spelledFilter := by decide
  refine ⟨by decide, (hvalues _).2, hform, fun htext => ?_, ?_⟩
  · exact absurd (hfilters _ _ hform htext) (by decide)
  · exact hfilters _ _ (by decide) (by decide)

end Filter

end DirectoryAccess
