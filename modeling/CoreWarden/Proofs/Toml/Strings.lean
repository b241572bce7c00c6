import CoreWarden.Toml.Text

/-!
Strings of TOML read again as they were written. Whatever style is taken for a string, each of its
characters is read from what is written for it, and the closing quotes are found where they stand.
-/
namespace CoreWarden.Toml.Text

/-- No quote stands at the front: a quote there would belong to the string in front of it. -/
def NoQuote (s : List Char) : Prop := ∀ c rest, s = c :: rest → c ≠ '"' ∧ c ≠ '\''

theorem noQuote_cons {c : Char} {s : List Char} (hd : c ≠ '"') (hs : c ≠ '\'') : NoQuote (c :: s) := by
  rintro c' rest h
  cases h
  exact ⟨hd, hs⟩

def found (c : Char) (rest : Option (List Char × List Char)) : Option (List Char × List Char) :=
  rest.map (push c)

theorem found_some (c : Char) (cs rest : List Char) : found c (some (cs, rest)) = some (c :: cs, rest) :=
  rfl

/-! ### Escapes -/

theorem ofCode?_hex : ∀ n < 128, ofCode? ['0', '0', hexChar (n / 16 % 16), hexChar (n % 16)] =
    some (Char.ofNat n) := by decide +kernel

/-- A character that no string can hold as it is has a code of two hexadecimal digits. -/
theorem toNat_lt_of_not_plain {c : Char} (h : isPlain c = false) : c.toNat < 128 := by
  simp only [isPlain, Bool.or_eq_false_iff, Bool.and_eq_false_iff, bne_eq_false_iff_eq,
    decide_eq_false_iff_not] at h
  omega

theorem ofCode?_of_not_plain {c : Char} (h : isPlain c = false) :
    ofCode? ['0', '0', hexChar (c.toNat / 16 % 16), hexChar (c.toNat % 16)] = some c := by
  rw [ofCode?_hex c.toNat (toNat_lt_of_not_plain h), Char.ofNat_toNat]

inductive Written (c : Char) : List Char → Prop where
  | plain (hp : isPlain c = true) (hq : c ≠ '"') (hb : c ≠ '\\') : Written c [c]
  | letter (e : Char) (he : escaped? e = some c) : Written c ['\\', e]
  | code (hp : isPlain c = false) :
      Written c ['\\', 'u', '0', '0', hexChar (c.toNat / 16 % 16), hexChar (c.toNat % 16)]

theorem written_writeChar (c : Char) : Written c (writeChar c) := by
  unfold writeChar
  repeat' split
  iterate 7
    · next h =>
      subst h
      exact .letter _ rfl
  · next hq hb _ _ _ _ _ hp => exact .plain hp hq hb
  · next hp => exact .code (by simpa using hp)

/-- What is written for a character begins neither with a quote nor with a line end. -/
theorem written_head {c : Char} {w : List Char} (h : Written c w) :
    ∃ d tail, w = d :: tail ∧ isPlain d = true ∧ d ≠ '"' := by
  cases h with
  | plain hp hq => exact ⟨c, [], rfl, hp, hq⟩
  | letter | code => exact ⟨'\\', _, rfl, rfl, by decide⟩

theorem ne_of_escaped? {e c : Char} (h : escaped? e = some c) : e ≠ 'x' ∧ e ≠ 'u' ∧ e ≠ 'U' := by
  refine ⟨?_, ?_, ?_⟩ <;> rintro rfl <;> cases h

/-! ### Basic strings on one line -/

theorem basic?_letter {e c : Char} (he : escaped? e = some c) (tail : List Char) :
    basic? ('\\' :: e :: tail) = found c (basic? tail) := by
  obtain ⟨hx, hu, hU⟩ := ne_of_escaped? he
  rw [basic?]
  · rw [he]
    cases basic? tail <;> rfl
  · intro _ _ _ h _
    exact hx h
  · intro _ _ _ _ _ h _
    exact hu h
  · intro _ _ _ _ _ _ _ _ _ h _
    exact hU h

theorem basic?_code {c : Char} (hp : isPlain c = false) (tail : List Char) :
    basic? ('\\' :: 'u' :: '0' :: '0' :: hexChar (c.toNat / 16 % 16) :: hexChar (c.toNat % 16) :: tail) =
      found c (basic? tail) := by
  rw [basic?, ofCode?_of_not_plain hp]
  cases basic? tail <;> rfl

theorem basic?_plain {c : Char} (hp : isPlain c = true) (hq : c ≠ '"') (hb : c ≠ '\\')
    (tail : List Char) : basic? (c :: tail) = found c (basic? tail) := by
  rw [basic?]
  · simp [hp, hb, found]
  · exact hq
  · intro _ _ _ h _
    exact hb h
  · intro _ _ _ _ _ h _
    exact hb h
  · intro _ _ _ _ _ _ _ _ _ h _
    exact hb h
  · intro _ _ h _
    exact hb h

/-- Each character is read from what is written for it. -/
theorem basic?_written {c : Char} {w : List Char} (h : Written c w) (tail : List Char) :
    basic? (w ++ tail) = found c (basic? tail) := by
  cases h with
  | plain hp hq hb => exact basic?_plain hp hq hb tail
  | letter e he => exact basic?_letter he tail
  | code hp => exact basic?_code hp tail

theorem basic?_write (s rest : List Char) :
    basic? (s.flatMap writeChar ++ '"' :: rest) = some (s, rest) := by
  induction s with
  | nil => rfl
  | cons c s ih =>
    rw [List.flatMap_cons, List.append_assoc, basic?_written (written_writeChar c), ih, found_some]

/-! ### Closing quotes -/

theorem replicate_append_cons (n : Nat) (c : Char) (s : List Char) :
    List.replicate n c ++ c :: s = c :: (List.replicate n c ++ s) := by
  induction n with
  | zero => rfl
  | succ n ih => rw [List.replicate_succ, List.cons_append, ih, List.cons_append]

/-- Quotes in front of the closing ones belong to the string, as far as they are no more than two. -/
theorem closing_replicate {quote : Char} {run : Nat} {rest : List Char} (hr : run ≤ 2)
    (hq : ∀ tail, rest ≠ quote :: tail) :
    closing quote (List.replicate run quote ++ rest) = (List.replicate run quote, rest) := by
  have hne : ∀ c tail, rest = c :: tail → c ≠ quote := by
    rintro c tail rfl rfl
    exact hq tail rfl
  match run with
  | 0 =>
    match rest with
    | [] => rfl
    | [a] => simp [closing, hne a [] rfl]
    | a :: b :: rest => simp [closing, hne a (b :: rest) rfl]
  | 1 =>
    match rest with
    | [] => simp [closing]
    | a :: rest => simp [closing, hne a rest rfl]
  | 2 => simp [closing, List.replicate]
  | run + 3 => omega

/-- Up to two quotes that no third one follows belong to the string, for a reader to which a quote
stands for itself as long as it is not the first of three. -/
theorem quotes_of_self {read : List Char → Option (List Char × List Char)} {quote : Char}
    (hself : ∀ tail, (∀ rest, tail ≠ quote :: quote :: rest) → read (quote :: tail) = found quote (read tail))
    {run : Nat} {s cs rest : List Char} (hr : run ≤ 2) (hs : ∀ tail, s ≠ quote :: tail)
    (hread : read s = some (cs, rest)) :
    read (List.replicate run quote ++ s) = some (List.replicate run quote ++ cs, rest) := by
  have hone : read (quote :: s) = some (quote :: cs, rest) := by
    rw [hself s fun rest => hs _, hread, found_some]
  match run with
  | 0 => exact hread
  | 1 => exact hone
  | 2 =>
    change read (quote :: quote :: s) = _
    rw [hself (quote :: s) fun rest h => hs _ (List.cons.inj h).2, hone, found_some]
    rfl
  | run + 3 => omega

/-! ### Basic strings on several lines -/

theorem basicLines?_letter {e c : Char} (he : escaped? e = some c) (tail : List Char) :
    basicLines? false ('\\' :: e :: tail) = found c (basicLines? false tail) := by
  obtain ⟨hx, hu, hU⟩ := ne_of_escaped? he
  -- A backslash in front of one of these letters does not join lines.
  have hline : endsLine (e :: tail) = false := by
    unfold escaped? at he
    split at he <;> first | rfl | cases he
  rw [basicLines?]
  · rw [if_neg (by simp [hline]), he]
    cases basicLines? false tail <;> rfl
  · intro _ _ _ h _
    exact hx h
  · intro _ _ _ _ _ h _
    exact hu h
  · intro _ _ _ _ _ _ _ _ _ h _
    exact hU h

theorem basicLines?_code {c : Char} (hp : isPlain c = false) (tail : List Char) :
    basicLines? false
        ('\\' :: 'u' :: '0' :: '0' :: hexChar (c.toNat / 16 % 16) :: hexChar (c.toNat % 16) :: tail) =
      found c (basicLines? false tail) := by
  rw [basicLines?, ofCode?_of_not_plain hp]
  cases basicLines? false tail <;> rfl

/-- A character stands for itself, a quote as long as it is not the first of three. -/
theorem basicLines?_self {c : Char} {tail : List Char} (hp : isPlain c = true ∨ c = '\n') (hb : c ≠ '\\')
    (hq : c = '"' → ∀ rest, tail ≠ '"' :: '"' :: rest) :
    basicLines? false (c :: tail) = found c (basicLines? false tail) := by
  have hreturn : c ≠ '\r' := by
    rintro rfl
    revert hp
    decide
  rw [basicLines?]
  · simp [hp, hb, found]
  · intro rest hc ht
    exact hq hc rest ht
  · intro _ _ _ h _
    exact hb h
  · intro _ _ _ _ _ h _
    exact hb h
  · intro _ _ _ _ _ _ _ _ _ h _
    exact hb h
  · intro _ _ h _
    exact hb h
  · intro _ h _
    exact hreturn h

theorem basicLines?_quote (tail : List Char) (h : ∀ rest, tail ≠ '"' :: '"' :: rest) :
    basicLines? false ('"' :: tail) = found '"' (basicLines? false tail) :=
  basicLines?_self (.inl rfl) (by decide) fun _ => h

theorem basicLines?_written {c : Char} {w : List Char} (h : Written c w) (tail : List Char) :
    basicLines? false (w ++ tail) = found c (basicLines? false tail) := by
  cases h with
  | plain hp hq hb => exact basicLines?_self (.inl hp) hb fun hc => absurd hc hq
  | letter e he => exact basicLines?_letter he tail
  | code hp => exact basicLines?_code hp tail

theorem basicLines?_write (s rest : List Char) (hrest : NoQuote rest) {run : Nat} (hr : run ≤ 2) :
    basicLines? false (List.replicate run '"' ++ (writeLines run s ++ '"' :: '"' :: '"' :: rest)) =
      some (List.replicate run '"' ++ s, rest) := by
  -- `run` quotes were written right before and have not been read yet.
  induction s generalizing run with
  | nil =>
    have hclosing : closing '"' (List.replicate run '"' ++ rest) = (List.replicate run '"', rest) :=
      closing_replicate hr fun tail h => (hrest '"' tail h).1 rfl
    rw [writeLines, List.nil_append, replicate_append_cons, replicate_append_cons, replicate_append_cons,
      basicLines?, hclosing, List.append_nil]
  | cons c s ih =>
    have hzero : basicLines? false (writeLines 0 s ++ '"' :: '"' :: '"' :: rest) = some (s, rest) :=
      ih (Nat.zero_le 2)
    rw [writeLines]
    split
    · next hc =>
      subst hc
      split
      · next htwo =>
        refine quotes_of_self basicLines?_quote hr (fun _ h => absurd (List.cons.inj h).1 (by decide)) ?_
        rw [List.cons_append, List.cons_append, basicLines?_letter rfl, hzero, found_some]
      · next htwo =>
        have hread := ih (Nat.lt_of_le_of_ne hr htwo)
        rwa [List.replicate_succ, List.cons_append, List.cons_append, ← replicate_append_cons,
          ← replicate_append_cons] at hread
    · next hc =>
      split
      · next hline =>
        subst hline
        refine quotes_of_self basicLines?_quote hr (fun _ h => absurd (List.cons.inj h).1 (by decide)) ?_
        rw [List.cons_append, basicLines?_self (.inr rfl) (by decide), hzero, found_some]
        rintro h
        cases h
      · next hline =>
        have hw := written_writeChar c
        rw [List.append_assoc]
        have hnot : ∀ tail, writeChar c ++ (writeLines 0 s ++ '"' :: '"' :: '"' :: rest) ≠ '"' :: tail := by
          intro tail h
          obtain ⟨d, tail', hd, -, hne⟩ := written_head hw
          rw [hd] at h
          exact hne (List.cons.inj h).1
        refine quotes_of_self basicLines?_quote hr hnot ?_
        rw [basicLines?_written hw, hzero, found_some]

/-! ### Literal strings -/

theorem literal?_write {s : List Char} (hp : ∀ c ∈ s, isPlain c = true) (hq : '\'' ∉ s)
    (rest : List Char) : literal? (s ++ '\'' :: rest) = some (s, rest) := by
  induction s with
  | nil => rfl
  | cons c s ih =>
    obtain ⟨hc, hs⟩ := List.forall_mem_cons.mp hp
    rw [List.mem_cons, not_or] at hq
    rw [List.cons_append, literal?, if_neg (Ne.symm hq.1), if_pos hc, ih hs hq.2]
    rfl

theorem le_longestRun (c : Char) (run : Nat) (s : List Char) : run ≤ longestRun c run s := by
  induction s generalizing run with
  | nil => exact Nat.le_refl run
  | cons d s ih =>
    rw [longestRun]
    split
    · exact Nat.le_of_succ_le (ih (run + 1))
    · exact Nat.le_max_left ..

theorem literalLines?_self {c : Char} {tail : List Char} (hc : isControl c = false)
    (hq : c = '\'' → ∀ rest, tail ≠ '\'' :: '\'' :: rest) :
    literalLines? (c :: tail) = found c (literalLines? tail) := by
  have hreturn : c ≠ '\r' := by
    rintro rfl
    revert hc
    decide
  have hplain : (isPlain c || c == '\n') = true := by
    cases hp : isPlain c <;> simp_all [isControl]
  rw [literalLines?]
  · rw [if_pos hplain]
    rfl
  · intro rest h ht
    exact hq h rest ht
  · intro _ h _
    exact hreturn h

theorem literalLines?_quote (tail : List Char) (h : ∀ rest, tail ≠ '\'' :: '\'' :: rest) :
    literalLines? ('\'' :: tail) = found '\'' (literalLines? tail) :=
  literalLines?_self rfl fun _ => h

theorem literalLines?_write {s rest : List Char} (hrest : NoQuote rest) {run : Nat}
    (hs : ∀ c ∈ s, isControl c = false) (hr : longestRun '\'' run s ≤ 2) :
    literalLines? (List.replicate run '\'' ++ (s ++ '\'' :: '\'' :: '\'' :: rest)) =
      some (List.replicate run '\'' ++ s, rest) := by
  induction s generalizing run with
  | nil =>
    have hrun : run ≤ 2 := hr
    have hclosing : closing '\'' (List.replicate run '\'' ++ rest) = (List.replicate run '\'', rest) :=
      closing_replicate hrun fun tail h => (hrest '\'' tail h).2 rfl
    rw [List.nil_append, replicate_append_cons, replicate_append_cons, replicate_append_cons,
      literalLines?, hclosing, List.append_nil]
  | cons c s ih =>
    obtain ⟨hc, htail⟩ := List.forall_mem_cons.mp hs
    have hrun : run ≤ 2 := Nat.le_trans (le_longestRun ..) hr
    rw [longestRun] at hr
    split at hr
    · next hquote =>
      subst hquote
      have hread := ih htail hr
      rwa [List.replicate_succ, List.cons_append, List.cons_append, ← replicate_append_cons,
        ← replicate_append_cons] at hread
    · next hquote =>
      have hzero : literalLines? (s ++ '\'' :: '\'' :: '\'' :: rest) = some (s, rest) :=
        ih htail (Nat.le_trans (Nat.le_max_right ..) hr)
      refine quotes_of_self literalLines?_quote hrun (fun _ h => hquote (List.cons.inj h).1) ?_
      rw [List.cons_append, literalLines?_self hc fun h => absurd h hquote, hzero, found_some]

/-! ### Styles -/

/-- Why a string may be written in a style. Escapes can hold every string. -/
def Style.Holds (s : List Char) : Style → Prop
  | .basic => True
  | .literal => (∀ c ∈ s, isPlain c = true) ∧ '\'' ∉ s
  | .basicLines => True
  | .literalLines => (∀ c ∈ s, isControl c = false) ∧ longestRun '\'' 0 s ≤ 2

theorem style_holds (s : List Char) : (style s).Holds s := by
  unfold style
  extract_lets lines slash escaping
  have hescaping : escaping.Holds s := by
    unfold escaping
    split <;> trivial
  split
  · exact hescaping
  · next hcontrol =>
    simp only [List.any_eq_true, not_exists, not_and, Bool.not_eq_true] at hcontrol
    split
    · trivial
    · split
      · next hline =>
        simp only [Bool.and_eq_true, Bool.not_eq_true', lines, List.contains_eq_mem,
          decide_eq_false_iff_not] at hline
        refine ⟨fun c hc => ?_, hline.2⟩
        have hne : c ≠ '\n' := fun h => hline.1 (h ▸ hc)
        simpa [isControl, hne] using hcontrol c hc
      · split
        · trivial
        · split
          · next hrun => exact ⟨hcontrol, hrun⟩
          · exact hescaping

/-- The line end behind the opening quotes is dropped. A string without one is not taken for it, since
no carriage return stands at its front. -/
theorem dropLineEnd_opening {s body : List Char}
    (h : '\n' ∉ s → ∀ c rest, body = c :: rest → isPlain c = true) :
    dropLineEnd (opening s ++ body) = body := by
  unfold opening
  split
  · rfl
  · next hline =>
    rw [List.contains_eq_mem, decide_eq_true_eq] at hline
    rw [List.nil_append, dropLineEnd]
    unfold afterLineEnd?
    split
    · exact absurd (h hline _ _ rfl) (by decide)
    · exact absurd (h hline _ _ rfl) (by decide)
    · rfl

theorem writeLines_head {s rest tail : List Char} {c : Char} (hline : '\n' ∉ s)
    (h : writeLines 0 s ++ '"' :: rest = c :: tail) : isPlain c = true := by
  cases s with
  | nil =>
    obtain rfl := (List.cons.inj h).1
    rfl
  | cons a s =>
    have ha : a ≠ '\n' := fun h => hline (h ▸ List.mem_cons_self)
    rw [writeLines, if_neg ha] at h
    split at h
    · obtain rfl := (List.cons.inj h).1
      rfl
    · obtain ⟨d, w, hw, hd, -⟩ := written_head (written_writeChar a)
      rw [hw] at h
      exact (List.cons.inj h).1 ▸ hd

theorem read?_basic {s : List Char} (h : ∀ tail, s ≠ '"' :: '"' :: tail) : read? ('"' :: s) = basic? s := by
  rw [read?]
  intro tail hs
  exact h tail hs

theorem read?_literal {s : List Char} (h : ∀ tail, s ≠ '\'' :: '\'' :: tail) :
    read? ('\'' :: s) = literal? s := by
  rw [read?]
  intro tail hs
  exact h tail hs

theorem read?_write (s : List Char) {rest : List Char} (hrest : NoQuote rest) :
    read? (write s ++ rest) = some (s, rest) := by
  have hstyle := style_holds s
  unfold write
  cases hcase : style s with
  | basic =>
    have hhead : ∀ tail, s.flatMap writeChar ++ '"' :: rest ≠ '"' :: '"' :: tail := by
      cases s with
      | nil => exact fun tail h => (hrest '"' tail (List.cons.inj h).2).1 rfl
      | cons c s =>
        obtain ⟨d, w, hw, -, hne⟩ := written_head (written_writeChar c)
        rw [List.flatMap_cons, hw]
        exact fun tail h => hne (List.cons.inj h).1
    simp only [List.cons_append, List.append_assoc, List.nil_append]
    rw [read?_basic hhead, basic?_write]
  | literal =>
    rw [hcase] at hstyle
    have hhead : ∀ tail, s ++ '\'' :: rest ≠ '\'' :: '\'' :: tail := by
      cases s with
      | nil => exact fun tail h => (hrest '\'' tail (List.cons.inj h).2).2 rfl
      | cons c s => exact fun tail h => hstyle.2 ((List.cons.inj h).1 ▸ List.mem_cons_self)
    simp only [List.cons_append, List.append_assoc, List.nil_append]
    rw [read?_literal hhead, literal?_write hstyle.1 hstyle.2]
  | basicLines =>
    have hread := basicLines?_write s rest hrest (Nat.zero_le 2)
    have hhead : '\n' ∉ s → ∀ c tail, writeLines 0 s ++ '"' :: '"' :: '"' :: rest = c :: tail →
        isPlain c = true := fun hline _ _ => writeLines_head hline
    simp only [List.cons_append, List.append_assoc, List.nil_append, read?]
    rw [dropLineEnd_opening hhead]
    exact hread
  | literalLines =>
    rw [hcase] at hstyle
    have hread := literalLines?_write hrest hstyle.1 hstyle.2
    have hhead : '\n' ∉ s → ∀ c tail, s ++ '\'' :: '\'' :: '\'' :: rest = c :: tail → isPlain c = true := by
      intro hline c tail h
      cases s with
      | nil =>
        obtain rfl := (List.cons.inj h).1
        rfl
      | cons a s =>
        obtain rfl := (List.cons.inj h).1
        have ha : a ≠ '\n' := fun h => hline (h ▸ List.mem_cons_self)
        simpa [isControl, ha] using hstyle.1 a List.mem_cons_self
    simp only [List.cons_append, List.append_assoc, List.nil_append, read?]
    rw [dropLineEnd_opening hhead]
    exact hread

end CoreWarden.Toml.Text
