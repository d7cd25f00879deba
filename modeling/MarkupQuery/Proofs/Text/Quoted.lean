import Mathlib.Data.List.Basic
import MarkupQuery.Text.Quoted

/-!
# What quoted text shows

Each character of a string is shown in one way, so the text between the quotes is determined by the string.
Conversely it tells which string is shown, for what stands for a character can be told from what follows
it, and a quote that stands by itself only closes the text. Nothing in the text is hidden.

## Main definitions

- `Quoted.Hidden`: a character would not be seen.
- `Quoted.Spells`: the text between quotes that shows given characters.

## Main results

- `Quoted.spells_iff`: what is shown for a string is its only spelling.
- `Quoted.not_hidden_of_mem_ofString`: all characters of quoted text are seen.
- `Quoted.ofString_injective`: different strings are shown differently.
- `toDigits_injective`: different numbers have different digits.
-/

namespace MarkupQuery

/-! ### Digits -/

/-- The digits up to fifteen are all different. -/
theorem digitChar_inj {m n : Nat} (hm : m < 16) (hn : n < 16) (h : m.digitChar = n.digitChar) :
    m = n := by
  have hall : ∀ m < 16, ∀ n < 16, m.digitChar = n.digitChar → m = n := by decide
  exact hall m hm n hn h

/-- A number with one digit has other digits than one with more. -/
theorem toDigits_ne_of_lt_of_le {base m n : Nat} (hbase : 1 < base) (hm : m < base) (hn : base ≤ n) :
    Nat.toDigits base m ≠ Nat.toDigits base n := by
  intro h
  rw [Nat.toDigits_of_lt_base hm, Nat.toDigits_of_base_le hbase hn] at h
  have hlength := congrArg List.length h
  have hpos : 0 < (Nat.toDigits base (n / base)).length := Nat.length_toDigits_pos
  simp only [List.length_append, List.length_singleton] at hlength
  omega

/-- In a base up to sixteen, different numbers have different digits. -/
theorem toDigits_injective {base : Nat} (hbase : 1 < base) (hle : base ≤ 16) :
    Function.Injective (Nat.toDigits base) := by
  intro m n h
  induction m using Nat.strongRecOn generalizing n with
  | ind m ih =>
    rcases Nat.lt_or_ge m base with hm | hm
    · rcases Nat.lt_or_ge n base with hn | hn
      · rw [Nat.toDigits_of_lt_base hm, Nat.toDigits_of_lt_base hn] at h
        exact digitChar_inj (by omega) (by omega) (List.singleton_inj.1 h)
      · exact absurd h (toDigits_ne_of_lt_of_le hbase hm hn)
    · rcases Nat.lt_or_ge n base with hn | hn
      · exact absurd h.symm (toDigits_ne_of_lt_of_le hbase hn hm)
      · rw [Nat.toDigits_of_base_le hbase hm, Nat.toDigits_of_base_le hbase hn] at h
        obtain ⟨hinit, hlast⟩ := List.append_inj' h rfl
        have hdiv : m / base = n / base := ih (m / base) (Nat.div_lt_self (by omega) hbase) hinit
        have hlt (k : Nat) : k % base < 16 := Nat.lt_of_lt_of_le (Nat.mod_lt k (by omega)) hle
        have hmod : m % base = n % base :=
          digitChar_inj (hlt m) (hlt n) (List.singleton_inj.1 hlast)
        rw [← Nat.div_add_mod m base, hdiv, hmod, Nat.div_add_mod]

/-- What holds of the digits up to fifteen holds of all digits of a number. -/
theorem forall_mem_toDigits {base : Nat} (hbase : 1 < base) (hle : base ≤ 16) {p : Char → Prop}
    (h : ∀ digit < 16, p digit.digitChar) (n : Nat) : ∀ char ∈ Nat.toDigits base n, p char := by
  induction n using Nat.strongRecOn with
  | ind n ih =>
    rcases Nat.lt_or_ge n base with hn | hn
    · rw [Nat.toDigits_of_lt_base hn]
      exact List.forall_mem_singleton.2 (h n (by omega))
    · rw [Nat.toDigits_of_base_le hbase hn]
      have hmod := Nat.mod_lt n (Nat.zero_lt_of_lt hbase)
      exact List.forall_mem_append.2 ⟨ih _ (Nat.div_lt_self (by omega) hbase),
        List.forall_mem_singleton.2 (h _ (by omega))⟩

namespace Quoted

/-! ### Spellings -/

/-- The characters that are written behind a backslash, with the letters that are written for them. -/
def letters : List (Char × Char) :=
  [('"', '"'), ('\\', '\\'), ('\n', 'n'), ('\r', 'r'), ('\t', 't'), ('\x00', '0')]

/-- A character would not be seen, for it extends the one before it or shows nothing by itself. -/
def Hidden (char : Char) : Prop :=
  char.toNat ∈ CodePoints.graphemeExtending ∨ char.toNat ∈ CodePoints.unprintable

/-- Whether a character would not be seen is found out by searching both classes. -/
theorem isHidden_iff {char : Char} : isHidden char = true ↔ Hidden char := by
  rw [isHidden, Bool.or_eq_true, CodePoints.contains_iff, CodePoints.contains_iff, Hidden]

instance (char : Char) : Decidable (Hidden char) :=
  decidable_of_iff (isHidden char = true) isHidden_iff

/-- A text between quotes that shows given characters. -/
inductive Spells : List Char → List Char → Prop where
  /-- No characters. -/
  | nil : Spells [] []
  /-- A character that is written by a letter. -/
  | letter {char letter : Char} {text content : List Char} (hletter : (char, letter) ∈ letters)
      (h : Spells text content) : Spells ('\\' :: letter :: text) (char :: content)
  /-- Another character that would not be seen, written by the hexadecimal digits of its code point. -/
  | codePoint {char : Char} {text content : List Char} (hletter : ∀ letter, (char, letter) ∉ letters)
      (hhidden : Hidden char) (h : Spells text content) :
      Spells ('\\' :: 'u' :: '\x7b' :: (Nat.toDigits 16 char.toNat ++ '\x7d' :: text))
        (char :: content)
  /-- Another character, which stands for itself. -/
  | self {char : Char} {text content : List Char} (hletter : ∀ letter, (char, letter) ∉ letters)
      (hseen : ¬Hidden char) (h : Spells text content) :
      Spells (char :: text) (char :: content)

/-- The characters that have a letter are written by it. -/
theorem escape_of_mem_letters {char letter : Char} (h : (char, letter) ∈ letters) :
    (escape char).toList = ['\\', letter] := by
  have hall : ∀ entry ∈ letters, (escape entry.1).toList = ['\\', entry.2] := by decide
  exact hall _ h

/-- The characters that have no letter are written by their code point if they are hidden, and stand for
themselves otherwise. -/
theorem escape_of_notMem_letters {char : Char} (h : ∀ letter, (char, letter) ∉ letters) :
    (escape char).toList =
      if Hidden char then '\\' :: 'u' :: '\x7b' :: (Nat.toDigits 16 char.toNat ++ ['\x7d'])
      else [char] := by
  simp only [letters, List.mem_cons, Prod.mk.injEq, List.not_mem_nil, or_false, not_or, not_and] at h
  rw [escape.eq_def]
  split
  case h_7 => simp only [isHidden_iff]; split <;> simp
  all_goals simp at h

/-- What is shown for a character spells it. -/
theorem spells_escape {text content : List Char} (char : Char) (h : Spells text content) :
    Spells ((escape char).toList ++ text) (char :: content) := by
  by_cases hletter : ∃ letter, (char, letter) ∈ letters
  · obtain ⟨letter, hmem⟩ := hletter
    rw [escape_of_mem_letters hmem]
    exact .letter hmem h
  · rw [not_exists] at hletter
    rw [escape_of_notMem_letters hletter]
    split
    · next hhidden => simpa using .codePoint hletter hhidden h
    · next hseen => exact .self hletter hseen h

/-- What is shown for a string is its only spelling. -/
theorem spells_iff {text content : List Char} :
    Spells text content ↔ text = content.flatMap fun char => (escape char).toList := by
  constructor
  · intro h
    induction h with
    | nil => rfl
    | letter hletter _ ih => rw [List.flatMap_cons, escape_of_mem_letters hletter, ← ih]; rfl
    | codePoint hletter hhidden _ ih =>
      rw [List.flatMap_cons, escape_of_notMem_letters hletter, if_pos hhidden, ← ih]
      simp
    | self hletter hseen _ ih =>
      rw [List.flatMap_cons, escape_of_notMem_letters hletter, if_neg hseen, ← ih]
      rfl
  · rintro rfl
    induction content with
    | nil => exact .nil
    | cons char content ih => exact spells_escape char ih

/-- Different characters are written by different letters, none of which begins a code point. -/
theorem letters_spec :
    (∀ entry ∈ letters, ∀ other ∈ letters, entry.2 = other.2 → entry = other) ∧
      ∀ entry ∈ letters, entry.2 ≠ 'u' := by
  decide

/-- Neither a quote nor a backslash stands for itself. -/
theorem ne_of_notMem_letters {char : Char} (h : ∀ letter, (char, letter) ∉ letters) :
    char ≠ '"' ∧ char ≠ '\\' := by
  constructor
  · rintro rfl
    exact h '"' (by decide)
  · rintro rfl
    exact h '\\' (by decide)

/-- What stands in front of the first brace, and what stands behind it, can be told apart. -/
theorem append_cons_inj {first first' rest rest' : List Char} {char : Char} (h : char ∉ first)
    (h' : char ∉ first') (heq : first ++ char :: rest = first' ++ char :: rest') :
    first = first' ∧ rest = rest' := by
  rcases List.append_eq_append_iff.1 heq with ⟨between, rfl, hbetween⟩ | ⟨between, rfl, hbetween⟩
  · cases between with
    | nil => exact ⟨(List.append_nil _).symm, (List.cons.inj hbetween).2⟩
    | cons => simp [(List.cons.inj hbetween).1] at h'
  · cases between with
    | nil => exact ⟨List.append_nil _, (List.cons.inj hbetween).2.symm⟩
    | cons => simp [(List.cons.inj hbetween).1] at h

/-- The digits of a code point end in front of the brace. -/
theorem brace_notMem_toDigits (code : Nat) : '\x7d' ∉ Nat.toDigits 16 code := by
  intro hmem
  exact forall_mem_toDigits (p := (· ≠ '\x7d')) (by decide) (by decide) (by decide) code _ hmem rfl

/-- Up to the closing quote, a text tells what it shows. -/
theorem Spells.content_eq {text text' content content' rest rest' : List Char}
    (h : Spells text content) (h' : Spells text' content')
    (heq : text ++ '"' :: rest = text' ++ '"' :: rest') : content = content' := by
  induction h generalizing text' content' with
  | nil =>
    cases h' with
    | nil => rfl
    | letter | codePoint => simp at heq
    | self hletter _ _ => exact absurd (List.cons.inj heq).1.symm (ne_of_notMem_letters hletter).1
  | @letter char letter text content hmem _ ih =>
    cases h' with
    | nil => simp at heq
    | letter hmem' h' =>
      simp only [List.cons_append, List.cons.injEq, true_and] at heq
      obtain ⟨hletter, hrest⟩ := heq
      rw [ih h' hrest, (Prod.mk.inj (letters_spec.1 _ hmem _ hmem' hletter)).1]
    | codePoint =>
      simp only [List.cons_append, List.cons.injEq, true_and] at heq
      exact absurd heq.1 (letters_spec.2 _ hmem)
    | self hletter _ _ =>
      exact absurd (List.cons.inj heq).1.symm (ne_of_notMem_letters hletter).2
  | @codePoint char text content _ _ _ ih =>
    cases h' with
    | nil => simp at heq
    | letter hmem' _ =>
      simp only [List.cons_append, List.cons.injEq, true_and] at heq
      exact absurd heq.1.symm (letters_spec.2 _ hmem')
    | @codePoint char' text' content' _ _ h' =>
      simp only [List.cons_append, List.cons.injEq, true_and, List.append_assoc] at heq
      obtain ⟨hdigits, hrest⟩ :=
        append_cons_inj (brace_notMem_toDigits _) (brace_notMem_toDigits _) heq
      have hcode : char.toNat = char'.toNat := toDigits_injective (by decide) (by decide) hdigits
      rw [Char.toNat_inj.1 hcode, ih h' hrest]
    | self hletter _ _ =>
      exact absurd (List.cons.inj heq).1.symm (ne_of_notMem_letters hletter).2
  | @self char text content hletter _ _ ih =>
    obtain ⟨hquote, hslash⟩ := ne_of_notMem_letters hletter
    cases h' with
    | nil => exact absurd (List.cons.inj heq).1 hquote
    | letter | codePoint => exact absurd (List.cons.inj heq).1 hslash
    | self _ _ h' =>
      obtain ⟨hchar, hrest⟩ := List.cons.inj heq
      rw [hchar, ih h' hrest]

/-! ### Between quotes -/

/-- A string is shown by its spelling between quotes. -/
theorem toList_ofString (text : String) :
    (ofString text).toList =
      '"' :: (text.toList.flatMap (fun char => (escape char).toList) ++ ['"']) := by
  simp [ofString, String.toList_join, List.flatMap_map]

/-- A text between quotes is what is shown for a string exactly if it spells the string. -/
theorem ofString_eq_iff {value text : String} :
    ofString value = "\"" ++ text ++ "\"" ↔ Spells text.toList value.toList := by
  rw [spells_iff, ← String.toList_inj, toList_ofString]
  simp [eq_comm]

-- A combining accent and a space that does not break are hidden, the letter between them is not.
example : ofString "\u0301é\u00a0" = "\"\\u\x7b301\x7dé\\u\x7ba0\x7d\"" := by decide +kernel

/-- All strings can be spelled. -/
theorem exists_spells (value : String) : ∃ text : String, Spells text.toList value.toList :=
  ⟨String.join (value.toList.map escape), ofString_eq_iff.1 rfl⟩

/-- Different strings are shown differently. -/
theorem ofString_injective : Function.Injective ofString := by
  intro a b h
  have hlist := congrArg String.toList h
  rw [toList_ofString, toList_ofString] at hlist
  exact String.toList_injective
    ((spells_iff.2 rfl).content_eq (spells_iff.2 rfl) (List.cons.inj hlist).2)

/-- No character that is written in a spelling is hidden. -/
theorem Spells.not_hidden_of_mem {text content : List Char} (h : Spells text content) :
    ∀ char ∈ text, ¬Hidden char := by
  have hdigit : ∀ digit < 16, ¬Hidden digit.digitChar := by decide +kernel
  have hsigns : ¬Hidden '\\' ∧ ¬Hidden 'u' ∧ ¬Hidden '\x7b' ∧ ¬Hidden '\x7d' := by decide +kernel
  obtain ⟨hslash, hu, hopen, hclose⟩ := hsigns
  have hletters : ∀ entry ∈ letters, ¬Hidden entry.2 := by decide +kernel
  induction h with
  | nil => exact List.forall_mem_nil _
  | letter hletter _ ih =>
    simp only [List.forall_mem_cons]
    exact ⟨hslash, hletters _ hletter, ih⟩
  | codePoint _ _ _ ih =>
    simp only [List.forall_mem_cons, List.forall_mem_append]
    exact ⟨hslash, hu, hopen, forall_mem_toDigits (by decide) (by decide) hdigit _, hclose, ih⟩
  | self _ hseen _ ih => exact List.forall_mem_cons.2 ⟨hseen, ih⟩

/-- All characters of a string between quotes are seen. -/
theorem not_hidden_of_mem_ofString {text : String} {char : Char}
    (h : char ∈ (ofString text).toList) : ¬Hidden char := by
  have hquote : ¬Hidden '"' := by decide +kernel
  rw [toList_ofString, List.mem_cons, List.mem_append, List.mem_singleton] at h
  rcases h with rfl | hmem | rfl
  · exact hquote
  · exact (spells_iff.2 rfl).not_hidden_of_mem char hmem
  · exact hquote

end Quoted

end MarkupQuery
