import CoreWarden.Proofs.Json.Written
import CoreWarden.Proofs.Toml.Strings
import CoreWarden.Toml.Layout
import CoreWarden.Toml.Reader

/-!
What the keys of a section are set to, read again as it was written: texts, integers of 64 bits, and
arrays of texts in each of their layouts.
-/
namespace CoreWarden.Toml

open Json (Tree Value Numeral digit? digitValue digit?_eq isDigit_of_mem_toDigits)

/-! ### Integers -/

namespace Scalar

theorem filterMap_digit? {ds : List Char} (h : ∀ c ∈ ds, c.isDigit = true) :
    ds.filterMap digit? = ds.map digitValue := by
  induction ds with
  | nil => rfl
  | cons c ds ih =>
    obtain ⟨hc, hds⟩ := List.forall_mem_cons.mp h
    have hdigit : digit? c = some (digitValue c) := by rw [digit?_eq, if_pos hc]
    rw [List.filterMap_cons_some hdigit, ih hds, List.map_cons]

theorem integerTree_eq (n : Nat) : integerTree n = Tree.ofValue (.nat n) := by
  rw [integerTree, filterMap_digit? fun _ => isDigit_of_mem_toDigits]
  rfl

theorem grouped?_digits {c : Char} {ds : List Char} (h : ∀ d ∈ c :: ds, d.isDigit = true) :
    grouped? digit? (c :: ds) = some ((c :: ds).map digitValue) := by
  induction ds generalizing c with
  | nil => simp [grouped?, digit?_eq, h c List.mem_cons_self]
  | cons d ds ih =>
    obtain ⟨hc, htail⟩ := List.forall_mem_cons.mp h
    have hd : d ≠ '_' := by
      rintro rfl
      exact absurd (htail '_' List.mem_cons_self) (by decide)
    rw [grouped?]
    · simp [digit?_eq, hc, ih htail]
    · simp
    · simp [hd]

theorem whole?_toDigits (n : Nat) :
    whole? (Nat.toDigits 10 n) = some ((Nat.toDigits 10 n).map digitValue) := by
  have hall : ∀ c ∈ Nat.toDigits 10 n, c.isDigit = true := fun _ => isDigit_of_mem_toDigits
  generalize hds : Nat.toDigits 10 n = ds at hall
  rw [whole?]
  match ds with
  | [] => exact absurd hds Nat.toDigits_ne_nil
  | [c] => simp [grouped?_digits hall]
  | c :: d :: ds =>
    rw [grouped?_digits hall]
    have hc : digitValue c ≠ 0 := by
      intro hzero
      obtain rfl := Json.eq_zero_of_digitValue (hall c List.mem_cons_self) hzero
      cases Json.eq_nil_of_toDigits hds
    simp [hc]

theorem ofDigits_map (ds : List Char) (n : Nat) :
    (ds.map digitValue).foldl (10 * · + ·) n = Nat.ofDigitChars 10 ds n := by
  induction ds generalizing n with
  | nil => rfl
  | cons c ds ih =>
    rw [List.map_cons, List.foldl_cons, ih, Nat.ofDigitChars_cons]
    rfl

theorem ofDigits_toDigits (n : Nat) : ofDigits 10 ((Nat.toDigits 10 n).map digitValue) = n :=
  (ofDigits_map _ 0).trans Nat.ofDigitChars_ten_toDigits

/-- What is written of digits alone is taken neither for another base nor for a sign. -/
theorem number?_toDigits (n : Nat) : number? (Nat.toDigits 10 n) = some (n : Int) := by
  have hall : ∀ c ∈ Nat.toDigits 10 n, c.isDigit = true := fun _ => isDigit_of_mem_toDigits
  have hwhole := whole?_toDigits n
  have hvalue := ofDigits_toDigits n
  generalize Nat.toDigits 10 n = ds at hall hwhole hvalue
  have hsign : sign ds = (false, ds) := by
    unfold sign
    split
    · exact absurd (hall _ List.mem_cons_self) (by decide)
    · exact absurd (hall _ List.mem_cons_self) (by decide)
    · rfl
  unfold number?
  split
  iterate 3
    · exact absurd (hall _ (List.mem_cons_of_mem _ List.mem_cons_self)) (by decide)
  · simp [hsign, hwhole, hvalue]

theorem expect?_digits {c : Char} (hc : c.isDigit = false) {ds : List Char}
    (h : ∀ d ∈ ds, d.isDigit = true) : expect? c ds = none := by
  cases ds with
  | nil => rfl
  | cons d ds =>
    have hne : d ≠ c := by
      rintro rfl
      rw [h d List.mem_cons_self] at hc
      cases hc
    rw [expect?, if_neg hne]

theorem digits_of_pair? {ds rest : List Char} {n : Nat} (h : ∀ c ∈ ds, c.isDigit = true)
    (hread : pair? ds = some (n, rest)) : ∀ c ∈ rest, c.isDigit = true := by
  unfold pair? at hread
  split at hread
  · simp only [Option.bind_eq_bind, Option.bind_eq_some_iff] at hread
    obtain ⟨a, -, b, -, heq⟩ := hread
    cases heq
    intro c hc
    exact h c (List.mem_cons_of_mem _ (List.mem_cons_of_mem _ hc))
  · cases hread

theorem date?_digits {ds : List Char} (h : ∀ c ∈ ds, c.isDigit = true) : date? ds = none := by
  rw [Option.eq_none_iff_forall_ne_some]
  intro rest hread
  simp only [date?, Option.bind_eq_bind, Option.bind_eq_some_iff] at hread
  obtain ⟨century, hcentury, year, hyear, s, hs, -⟩ := hread
  rw [expect?_digits rfl (digits_of_pair? (digits_of_pair? h hcentury) hyear)] at hs
  cases hs

theorem time?_digits {ds : List Char} (h : ∀ c ∈ ds, c.isDigit = true) : time? ds = none := by
  rw [Option.eq_none_iff_forall_ne_some]
  intro rest hread
  simp only [time?, Option.bind_eq_bind, Option.bind_eq_some_iff] at hread
  obtain ⟨hour, hhour, s, hs, -⟩ := hread
  rw [expect?_digits rfl (digits_of_pair? h hhour)] at hs
  cases hs

theorem isMoment_digits {ds : List Char} (h : ∀ c ∈ ds, c.isDigit = true) : isMoment ds = false := by
  simp [isMoment, date?_digits h, time?_digits h]

theorem read?_toDigits {n : Nat} (h : n < integerLimit) :
    read? (Nat.toDigits 10 n) = some (Tree.ofValue (.nat n)) := by
  have hall : ∀ c ∈ Nat.toDigits 10 n, c.isDigit = true := fun _ => isDigit_of_mem_toDigits
  have hrange : inRange n = true := by
    simp only [inRange, Bool.and_eq_true, decide_eq_true_eq]
    rw [integerLimit] at h
    omega
  have hinteger : integer? (Nat.toDigits 10 n) = some (Tree.ofValue (.nat n)) := by
    rw [integer?, number?_toDigits, Option.filter_some, if_pos hrange, Option.map_some, integerTree_eq]
  have hword : ∀ c w, c.isDigit = false → Nat.toDigits 10 n ≠ c :: w := by
    intro c w hc heq
    rw [hall c (heq ▸ List.mem_cons_self)] at hc
    cases hc
  rw [read?, if_neg (hword 't' _ rfl), if_neg (hword 'f' _ rfl), isMoment_digits hall, hinteger]
  rfl

theorem split_word {word : List Char} (h : ∀ c ∈ word, isWordChar c = true) (rest : List Char) :
    split (word ++ '\n' :: rest) = (word, '\n' :: rest) := by
  have htake : (word ++ '\n' :: rest).takeWhile isWordChar = word := by
    rw [List.takeWhile_append_of_pos h]
    simp [isWordChar]
  have hdrop : (word ++ '\n' :: rest).dropWhile isWordChar = '\n' :: rest := by
    rw [List.dropWhile_append_of_pos h]
    rfl
  rw [split, htake, hdrop]
  rfl

theorem isWordChar_of_isDigit {c : Char} (h : c.isDigit = true) : isWordChar c = true := by
  simp [isWordChar, Char.isAlphanum, h]

end Scalar

/-! ### Values -/

def Field.value : Field → Value
  | .text s => .string s
  | .natural n => .nat n
  | .texts items => .array (items.map .string)

theorem Text.write_head (s : List Char) : ∃ c tail, Text.write s = c :: tail ∧ (c = '"' ∨ c = '\'') := by
  unfold Text.write
  split
  · exact ⟨_, _, rfl, .inl rfl⟩
  · exact ⟨_, _, rfl, .inr rfl⟩
  · exact ⟨_, _, rfl, .inl rfl⟩
  · exact ⟨_, _, rfl, .inr rfl⟩

theorem value?_text (fuel room : Nat) (s : String) {rest : List Char} (hrest : Text.NoQuote rest) :
    value? (fuel + 1) room (Text.write s.toList ++ rest) = some (Tree.ofValue (.string s), rest) := by
  have hread := Text.read?_write s.toList hrest
  obtain ⟨c, tail, hwrite, rfl | rfl⟩ := Text.write_head s.toList
  all_goals
    rw [hwrite, List.cons_append] at hread ⊢
    simp [value?, hread, Tree.ofValue]

theorem value?_natural (fuel room : Nat) {n : Nat} (h : n < integerLimit) (rest : List Char) :
    value? (fuel + 1) room (Nat.toDigits 10 n ++ '\n' :: rest) =
      some (Tree.ofValue (.nat n), '\n' :: rest) := by
  have hall : ∀ c ∈ Nat.toDigits 10 n, c.isDigit = true := fun _ => isDigit_of_mem_toDigits
  have hsplit := Scalar.split_word (fun c hc => Scalar.isWordChar_of_isDigit (hall c hc)) rest
  have hread := Scalar.read?_toDigits h
  cases hds : Nat.toDigits 10 n with
  | nil => exact absurd hds Nat.toDigits_ne_nil
  | cons c ds =>
    rw [hds] at hall hsplit hread
    have hne : ∀ d, d.isDigit = false → c ≠ d := by
      rintro d hd rfl
      rw [hall c List.mem_cons_self] at hd
      cases hd
    rw [List.cons_append] at hsplit ⊢
    rw [value?, hsplit]
    · simp only [hread, Option.map_some]
    · exact fun _ h => hne '"' rfl (List.cons.inj h).1
    · exact fun _ h => hne '\'' rfl (List.cons.inj h).1
    · exact fun _ h => hne '[' rfl (List.cons.inj h).1
    · exact fun _ h => hne '{' rfl (List.cons.inj h).1

/-! ### Arrays of texts -/

theorem skipLines?_self {c : Char} {rest : List Char} (hs : isSpace c = false) (hn : c ≠ '\n')
    (hr : c ≠ '\r') (hc : c ≠ '#') : skipLines? false (c :: rest) = some (c :: rest) := by
  rw [skipLines?]
  · simp [hs, hn, hc]
  · intro _ h
    exact absurd h hr

theorem skipLines?_text (s rest : List Char) :
    skipLines? false (Text.write s ++ rest) = some (Text.write s ++ rest) := by
  obtain ⟨c, tail, hwrite, rfl | rfl⟩ := Text.write_head s
  all_goals
    rw [hwrite, List.cons_append]
    exact skipLines?_self rfl (by decide) (by decide) (by decide)

theorem skipLines?_bracket (rest : List Char) : skipLines? false (']' :: rest) = some (']' :: rest) :=
  skipLines?_self rfl (by decide) (by decide) (by decide)

theorem skipLines?_comma (rest : List Char) : skipLines? false (',' :: rest) = some (',' :: rest) :=
  skipLines?_self rfl (by decide) (by decide) (by decide)

theorem skipLines?_blank {c : Char} (h : isSpace c = true ∨ c = '\n') (rest : List Char) :
    skipLines? false (c :: rest) = skipLines? false rest := by
  rw [skipLines?]
  · rw [if_pos (by simpa using h)]
  · rintro _ rfl
    rcases h with h | h <;> cases h

theorem skipLines?_indent (s rest : List Char) :
    skipLines? false ('\n' :: ("    ".toList ++ (Text.write s ++ rest))) = some (Text.write s ++ rest) := by
  change skipLines? false ('\n' :: ' ' :: ' ' :: ' ' :: ' ' :: (Text.write s ++ rest)) = _
  rw [skipLines?_blank (.inr rfl)]
  iterate 4 rw [skipLines?_blank (.inl rfl)]
  exact skipLines?_text s rest

theorem items?_none (fuel room : Nat) {s rest : List Char} (h : skipLines? false s = some (']' :: rest)) :
    items? (fuel + 1) room s = some ([], rest) := by
  simp [items?, h]

theorem items?_last (fuel room : Nat) {s rest : List Char} {item : String}
    (h : skipLines? false s = some (Text.write item.toList ++ ']' :: rest)) :
    items? (fuel + 2) room s = some ([Tree.ofValue (.string item)], rest) := by
  have hread := value?_text fuel room item (Text.noQuote_cons (s := rest) (c := ']') (by decide) (by decide))
  obtain ⟨c, tail, hwrite, hc⟩ := Text.write_head item.toList
  rw [hwrite, List.cons_append] at h hread
  obtain rfl | rfl := hc <;> simp [items?, h, hread, skipLines?_bracket]

theorem items?_next {fuel room : Nat} {s rest left : List Char} {item : String} {items : List Tree}
    (h : skipLines? false s = some (Text.write item.toList ++ ',' :: rest))
    (hnext : items? (fuel + 1) room rest = some (items, left)) :
    items? (fuel + 2) room s = some (Tree.ofValue (.string item) :: items, left) := by
  have hread := value?_text fuel room item (Text.noQuote_cons (s := rest) (c := ',') (by decide) (by decide))
  obtain ⟨c, tail, hwrite, hc⟩ := Text.write_head item.toList
  rw [hwrite, List.cons_append] at h hread
  rw [items?, h]
  obtain rfl | rfl := hc <;> simp [hread, skipLines?_comma, hnext]

theorem items?_lines (items : List String) {fuel : Nat} (hfuel : items.length < fuel) (room : Nat)
    (rest : List Char) :
    items? fuel room ('\n' :: (items.flatMap Field.writeItem ++ ']' :: rest)) =
      some (items.map fun s => Tree.ofValue (.string s), rest) := by
  induction items generalizing fuel with
  | nil =>
    obtain ⟨fuel, rfl⟩ := Nat.exists_eq_add_of_lt hfuel
    rw [List.flatMap_nil]
    refine items?_none _ room ?_
    rw [List.nil_append, skipLines?_blank (.inr rfl), skipLines?_bracket]
  | cons item items ih =>
    obtain ⟨fuel, rfl⟩ : ∃ n, fuel = n + 2 := ⟨fuel - 2, by simp at hfuel; omega⟩
    have hitem : Field.writeItem item ++ items.flatMap Field.writeItem ++ ']' :: rest = "    ".toList ++
        (Text.write item.toList ++ ',' :: '\n' :: (items.flatMap Field.writeItem ++ ']' :: rest)) := by
      simp [Field.writeItem]
    rw [List.flatMap_cons, hitem]
    exact items?_next (skipLines?_indent ..) (ih (Nat.lt_of_succ_lt_succ hfuel))

theorem length_le_flatMap_writeItem (items : List String) :
    items.length ≤ (items.flatMap Field.writeItem).length := by
  induction items with
  | nil => exact Nat.le_refl 0
  | cons item items ih =>
    rw [List.flatMap_cons, List.length_append, List.length_cons, Nat.add_comm]
    refine Nat.add_le_add ?_ ih
    simp [Field.writeItem]

theorem value?_write {f : Field} (hf : f.isWritable = true) {fuel : Nat} (hfuel : f.write.length < fuel)
    (room : Nat) (rest : List Char) :
    value? fuel (room + 1) (f.write ++ '\n' :: rest) = some (Tree.ofValue f.value, '\n' :: rest) := by
  obtain ⟨fuel, rfl⟩ : ∃ n, fuel = n + 1 := ⟨fuel - 1, by omega⟩
  cases f with
  | text s => exact value?_text fuel _ s (Text.noQuote_cons (by decide) (by decide))
  | natural n => exact value?_natural fuel _ (by simpa [Field.isWritable] using hf) rest
  | texts items =>
    match items with
    | [] =>
      obtain ⟨fuel, rfl⟩ : ∃ n, fuel = n + 1 := ⟨fuel - 1, by simp [Field.write] at hfuel; omega⟩
      change value? (fuel + 2) (room + 1) ('[' :: ']' :: '\n' :: rest) = _
      simp only [value?, items?_none fuel room (skipLines?_bracket ('\n' :: rest)), Option.map_some]
      rfl
    | [s] =>
      obtain ⟨fuel, rfl⟩ : ∃ n, fuel = n + 2 := ⟨fuel - 2, by simp [Field.write] at hfuel; omega⟩
      change value? (fuel + 3) (room + 1) ('[' :: (Text.write s.toList ++ [']'] ++ '\n' :: rest)) = _
      rw [List.append_assoc, List.singleton_append]
      simp only [value?, items?_last fuel room (skipLines?_text s.toList (']' :: '\n' :: rest)), Option.map_some]
      rfl
    | a :: b :: items =>
      have hlength : (a :: b :: items).length < fuel := by
        have hle := length_le_flatMap_writeItem (a :: b :: items)
        have hwrite : (Field.texts (a :: b :: items)).write.length =
            ((a :: b :: items).flatMap Field.writeItem).length + 3 := by
          simp only [Field.write, List.length_cons, List.length_append, List.length_nil]
        omega
      change value? (fuel + 1) (room + 1)
        ('[' :: '\n' :: ((a :: b :: items).flatMap Field.writeItem ++ [']'] ++ '\n' :: rest)) = _
      rw [List.append_assoc, List.singleton_append]
      simp only [value?, items?_lines (a :: b :: items) hlength, Option.map_some]
      rw [Field.value, Tree.ofValue, Tree.ofItems_eq_map, List.map_map]
      rfl

end CoreWarden.Toml
