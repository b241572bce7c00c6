import CoreWarden.Proofs.Toml.Values

/-!
Sections read again line by line. Reading a section opens the table that its header names and sets the
keys of that table one after the other; what comes after the section does not matter.
-/
namespace CoreWarden.Toml

open Json (Tree)

/-! ### Bare keys -/

def IsBareKey (key : String) : Prop := key.toList ≠ [] ∧ ∀ c ∈ key.toList, isBare c = true

instance (key : String) : Decidable (IsBareKey key) :=
  decidable_of_iff (key.toList.isEmpty = false ∧ key.toList.all isBare = true) <|
    and_congr List.isEmpty_eq_false_iff List.all_eq_true

theorem IsBareKey.head {key : String} (h : IsBareKey key) :
    ∃ c tail, key.toList = c :: tail ∧ isBare c = true := by
  obtain ⟨hne, hall⟩ := h
  cases hkey : key.toList with
  | nil => exact absurd hkey hne
  | cons c tail => exact ⟨c, tail, rfl, hall c (hkey ▸ List.mem_cons_self)⟩

theorem ne_of_isBare {c d : Char} (h : isBare c = true) (hd : isBare d = false) : c ≠ d := by
  rintro rfl
  rw [h] at hd
  cases hd

def EndsKey (s : List Char) : Prop := ∀ c rest, s = c :: rest → isBare c = false

theorem endsKey_cons {c : Char} (h : isBare c = false) (rest : List Char) : EndsKey (c :: rest) := by
  rintro c' rest' heq
  cases heq
  exact h

theorem simpleKey?_write {key : String} (h : IsBareKey key) {rest : List Char} (hrest : EndsKey rest) :
    simpleKey? (key.toList ++ rest) = some (key, rest) := by
  have htake : (key.toList ++ rest).takeWhile isBare = key.toList := by
    rw [List.takeWhile_append_of_pos h.2]
    cases rest with
    | nil => rw [List.takeWhile_nil, List.append_nil]
    | cons c rest => simp [hrest c rest rfl]
  have hdrop : (key.toList ++ rest).dropWhile isBare = rest := by
    rw [List.dropWhile_append_of_pos h.2]
    cases rest with
    | nil => rfl
    | cons c rest => simp [hrest c rest rfl]
  obtain ⟨c, tail, hkey, hc⟩ := h.head
  have hname : String.ofList (c :: tail) = key := by rw [← hkey, String.ofList_toList]
  rw [hkey, List.cons_append] at htake hdrop ⊢
  rw [simpleKey?, htake, hdrop]
  · simp only [hname]
  · exact fun _ heq => ne_of_isBare hc rfl (List.cons.inj heq).1
  · exact fun _ heq => ne_of_isBare hc rfl (List.cons.inj heq).1

def writePath (path : List String) : List Char := (".".intercalate path).toList

theorem writePath_cons (key : String) {path : List String} (h : path ≠ []) :
    writePath (key :: path) = key.toList ++ '.' :: writePath path := by
  have hne : path.map String.toList ≠ [] := by simpa using h
  simp only [writePath, String.toList_intercalate, List.map_cons, List.intercalate_cons_of_ne_nil hne]
  simp

theorem writePath_singleton (key : String) : writePath [key] = key.toList := by
  simp [writePath]

theorem skipSpace_self {c : Char} (h : isSpace c = false) (rest : List Char) :
    skipSpace (c :: rest) = c :: rest := by
  simp [skipSpace, h]

theorem isSpace_of_isBare {c : Char} (h : isBare c = true) : isSpace c = false := by
  have hblank := ne_of_isBare (d := ' ') h rfl
  have htab := ne_of_isBare (d := '\t') h rfl
  simp [isSpace, hblank, htab]

theorem writePath_head {path : List String} (hne : path ≠ []) (hbare : ∀ key ∈ path, IsBareKey key) :
    ∃ c tail, writePath path = c :: tail ∧ isBare c = true := by
  match path with
  | [] => exact absurd rfl hne
  | [key] =>
    rw [writePath_singleton]
    exact (hbare key List.mem_cons_self).head
  | key :: next :: path =>
    obtain ⟨c, tail, hkey, hc⟩ := (hbare key List.mem_cons_self).head
    rw [writePath_cons key (List.cons_ne_nil next path), hkey]
    exact ⟨c, _, rfl, hc⟩

theorem path?_write {path : List String} (hne : path ≠ []) (hbare : ∀ key ∈ path, IsBareKey key)
    {fuel : Nat} (hfuel : path.length ≤ fuel) {rest : List Char} (hrest : EndsKey rest)
    (hdot : ∀ tail, skipSpace rest ≠ '.' :: tail) :
    path? fuel (writePath path ++ rest) = some (path, skipSpace rest) := by
  induction path generalizing fuel with
  | nil => exact absurd rfl hne
  | cons key path ih =>
    obtain ⟨hkey, hpath⟩ := List.forall_mem_cons.mp hbare
    obtain ⟨fuel, rfl⟩ : ∃ n, fuel = n + 1 := ⟨fuel - 1, by simp at hfuel; omega⟩
    rw [path?]
    by_cases hlast : path = []
    · subst hlast
      rw [writePath_singleton, simpleKey?_write hkey hrest]
      simp only [Option.bind_eq_bind, Option.bind_some]
      rfl
    · obtain ⟨c, tail, hhead, hc⟩ := writePath_head hlast hpath
      have hskip : skipSpace (writePath path ++ rest) = writePath path ++ rest := by
        rw [hhead]
        exact skipSpace_self (isSpace_of_isBare hc) _
      have hread := ih hlast hpath (Nat.le_of_succ_le_succ hfuel)
      rw [writePath_cons key hlast, List.append_assoc, List.cons_append,
        simpleKey?_write hkey (endsKey_cons rfl _)]
      simp only [Option.bind_eq_bind, Option.bind_some, skipSpace_self (c := '.') rfl, hskip, hread]
      rfl

theorem length_le_writePath {path : List String} (hbare : ∀ key ∈ path, IsBareKey key) :
    path.length ≤ (writePath path).length := by
  match path with
  | [] => exact Nat.zero_le _
  | [key] =>
    rw [writePath_singleton]
    exact List.length_pos_iff.mpr (hbare key List.mem_cons_self).1
  | key :: next :: path =>
    have hle := length_le_writePath (List.forall_mem_cons.mp hbare).2
    rw [writePath_cons key (List.cons_ne_nil next path)]
    simp only [List.length_append, List.length_cons] at hle ⊢
    omega

theorem key?_write {path : List String} (hne : path ≠ []) (hbare : ∀ key ∈ path, IsBareKey key)
    (hlength : path.length ≤ maxNesting) {rest : List Char} (hrest : EndsKey rest)
    (hdot : ∀ tail, skipSpace rest ≠ '.' :: tail) :
    key? (writePath path ++ rest) = some (path, skipSpace rest) := by
  have hfuel : path.length ≤ (writePath path ++ rest).length + 1 := by
    have hle := length_le_writePath hbare
    rw [List.length_append]
    omega
  rw [key?, path?_write hne hbare hfuel hrest hdot, Option.filter_some, if_pos (by simpa using hlength)]

/-! ### Lines -/

namespace Progress

def set? (p : Progress) (field : String × Field) : Option Progress :=
  (p.root.modify p.path (Members.define [field.1] (.value (Tree.ofValue field.2.value)))).map
    fun root => ⟨root, p.path⟩

def perform? (p : Progress) (s : Section) : Option Progress :=
  (p.enter? s.path (if s.repeated then Members.openNext else Members.openTable)).bind fun p =>
    s.fields.foldlM set? p

theorem endLine?_newline (rest : List Char) : endLine? ('\n' :: rest) = some rest := rfl

end Progress

structure Section.IsNamed (s : Section) : Prop where
  path_ne_nil : s.path ≠ []
  length_path_le : s.path.length ≤ maxNesting
  isBareKey_path : ∀ key ∈ s.path, IsBareKey key
  isBareKey_fields : ∀ f ∈ s.fields, IsBareKey f.1

namespace Progress

theorem skipSpace_writePath {s : Section} (h : s.IsNamed) (rest : List Char) :
    skipSpace (writePath s.path ++ rest) = writePath s.path ++ rest := by
  obtain ⟨c, tail, hhead, hc⟩ := writePath_head h.path_ne_nil h.isBareKey_path
  rw [hhead]
  exact skipSpace_self (isSpace_of_isBare hc) _

theorem key?_path {s : Section} (h : s.IsNamed) (rest : List Char) :
    key? (writePath s.path ++ ']' :: rest) = some (s.path, ']' :: rest) := by
  have hskip : skipSpace (']' :: rest) = ']' :: rest := skipSpace_self rfl rest
  have hends : EndsKey (']' :: rest) := endsKey_cons rfl rest
  have hread := key?_write h.path_ne_nil h.isBareKey_path h.length_path_le hends (by simp [hskip])
  rwa [hskip] at hread

theorem line?_header {s : Section} (h : s.IsNamed) (p : Progress) (rest : List Char) :
    p.line? (s.header ++ rest) =
      (p.enter? s.path (if s.repeated then Members.openNext else Members.openTable)).map (·, rest) := by
  unfold Section.header
  split
  · next hrepeated =>
    have htext : ['[', '['] ++ (".".intercalate s.path).toList ++ [']', ']', '\n'] ++ rest =
        '[' :: '[' :: (writePath s.path ++ ']' :: ']' :: '\n' :: rest) := by simp [writePath]
    rw [htext, line?, skipSpace_self rfl]
    simp only [skipSpace_writePath h, key?_path h, endLine?_newline, Option.bind_eq_bind, Option.bind_some]
    cases p.enter? s.path Members.openNext <;> rfl
  · next hrepeated =>
    have htext : '[' :: ((".".intercalate s.path).toList ++ [']', '\n']) ++ rest =
        '[' :: (writePath s.path ++ ']' :: '\n' :: rest) := by simp [writePath]
    obtain ⟨c, tail, hhead, hc⟩ := writePath_head h.path_ne_nil h.isBareKey_path
    have hne : c ≠ '[' := ne_of_isBare hc rfl
    have hskip := skipSpace_writePath h (']' :: '\n' :: rest)
    have hread := key?_path h ('\n' :: rest)
    rw [hhead, List.cons_append] at hskip hread
    rw [htext, line?, skipSpace_self rfl, hhead, List.cons_append]
    split
    · next heq => exact absurd (List.cons.inj (List.cons.inj heq).2).1 hne
    · next heq =>
      obtain rfl := (List.cons.inj heq).2
      simp only [hskip, hread, endLine?_newline, Option.bind_eq_bind, Option.bind_some]
      cases p.enter? s.path Members.openTable <;> rfl
    · next heq => cases heq
    · next hbracket heq => exact (hbracket (List.cons.inj heq).1.symm).elim

theorem skipSpace_value (f : Field) (rest : List Char) : skipSpace (f.write ++ rest) = f.write ++ rest := by
  have htext : ∀ s rest, skipSpace (Text.write s ++ rest) = Text.write s ++ rest := by
    intro s rest
    obtain ⟨c, tail, hwrite, rfl | rfl⟩ := Text.write_head s
    all_goals
      rw [hwrite]
      rfl
  match f with
  | .text s => exact htext s.toList rest
  | .natural n =>
    have hall : ∀ c ∈ Nat.toDigits 10 n, c.isDigit = true := fun _ => Json.isDigit_of_mem_toDigits
    change skipSpace (Nat.toDigits 10 n ++ rest) = Nat.toDigits 10 n ++ rest
    cases hds : Nat.toDigits 10 n with
    | nil => exact absurd hds Nat.toDigits_ne_nil
    | cons c ds =>
      have hdigit := hall c (hds ▸ List.mem_cons_self)
      exact skipSpace_self (isSpace_of_isBare (by simp [isBare, Char.isAlphanum, hdigit])) _
  | .texts [] | .texts [s] | .texts (a :: b :: items) => rfl

/-- A bare key begins neither a comment nor an empty line. -/
theorem not_beginsOther {c : Char} (h : isBare c = true) (rest : List Char) :
    ¬(c = '#' ∨ (afterLineEnd? (c :: rest)).isSome = true) := by
  rintro (heq | hline)
  · exact ne_of_isBare h rfl heq
  · unfold afterLineEnd? at hline
    split at hline
    · next heq => exact ne_of_isBare h rfl (List.cons.inj heq).1
    · next heq => exact ne_of_isBare h rfl (List.cons.inj heq).1
    · cases hline

theorem line?_field {f : String × Field} (hkey : IsBareKey f.1) (hf : f.2.isWritable = true) (p : Progress)
    (rest : List Char) : p.line? (Section.writeField f ++ rest) = (p.set? f).map (·, rest) := by
  have htext : Section.writeField f ++ rest =
      f.1.toList ++ ' ' :: '=' :: ' ' :: (f.2.write ++ '\n' :: rest) := by simp [Section.writeField]
  have hskip : skipSpace (' ' :: '=' :: ' ' :: (f.2.write ++ '\n' :: rest)) =
      '=' :: ' ' :: (f.2.write ++ '\n' :: rest) := rfl
  have hends : EndsKey (' ' :: '=' :: ' ' :: (f.2.write ++ '\n' :: rest)) := endsKey_cons rfl _
  have hread := key?_write (List.cons_ne_nil f.1 []) (by simpa using hkey) (by decide : 1 ≤ maxNesting)
    hends (by simp [hskip])
  have hvalue := value?_write hf
    (by simp only [List.length_append, List.length_cons]; omega :
      f.2.write.length < 2 * (' ' :: (f.2.write ++ '\n' :: rest)).length + 2) 79 rest
  have hfront : skipSpace (' ' :: (f.2.write ++ '\n' :: rest)) = f.2.write ++ '\n' :: rest :=
    skipSpace_value f.2 ('\n' :: rest)
  obtain ⟨c, tail, hhead, hc⟩ := hkey.head
  rw [writePath_singleton, hskip, hhead, List.cons_append] at hread
  rw [htext, hhead, List.cons_append, line?, skipSpace_self (isSpace_of_isBare hc)]
  split
  · next heq => exact absurd (List.cons.inj heq).1 (ne_of_isBare hc rfl)
  · next heq => exact absurd (List.cons.inj heq).1 (ne_of_isBare hc rfl)
  · next heq => cases heq
  · next heq =>
    obtain ⟨rfl, rfl⟩ := List.cons.inj heq
    rw [if_neg (not_beginsOther hc _), hread]
    simp only [Option.bind_eq_bind, Option.bind_some, hfront, maxNesting, hvalue, endLine?_newline, set?]
    cases p.root.modify p.path (Members.define [f.1] (.value (Tree.ofValue f.2.value))) <;> rfl

theorem line?_blank (p : Progress) (rest : List Char) : p.line? ('\n' :: rest) = some (p, rest) := by
  rfl

/-- Reading a text leads from one state to another, whatever follows. There are no more lines in it than
characters. -/
def Reads (p : Progress) (s : List Char) (q : Progress) : Prop :=
  ∃ n ≤ s.length, ∀ fuel rest, p.lines? (fuel + n) (s ++ rest) = q.lines? fuel rest

theorem Reads.nil (p : Progress) : p.Reads [] p := ⟨0, Nat.le_refl 0, fun _ _ => rfl⟩

theorem Reads.append {p q r : Progress} {s t : List Char} (h₁ : p.Reads s q) (h₂ : q.Reads t r) :
    p.Reads (s ++ t) r := by
  obtain ⟨n, hn, hs⟩ := h₁
  obtain ⟨m, hm, ht⟩ := h₂
  refine ⟨m + n, ?_, fun fuel rest => ?_⟩
  · rw [List.length_append]
    omega
  · rw [List.append_assoc, ← Nat.add_assoc, hs, ht]

theorem Reads.line {p q : Progress} {s : List Char} (hne : s ≠ [])
    (h : ∀ rest, p.line? (s ++ rest) = some (q, rest)) : p.Reads s q := by
  refine ⟨1, List.length_pos_iff.mpr hne, fun fuel rest => ?_⟩
  have hnil : s ++ rest ≠ [] := by simp [hne]
  rw [lines?, h]
  · rfl
  · exact hnil

theorem reads_fields {fields : List (String × Field)} (hkeys : ∀ f ∈ fields, IsBareKey f.1)
    (hwritable : ∀ f ∈ fields, f.2.isWritable = true) {p q : Progress} (h : fields.foldlM set? p = some q) :
    p.Reads (fields.flatMap Section.writeField) q := by
  induction fields generalizing p with
  | nil =>
    cases h
    exact .nil _
  | cons f fields ih =>
    obtain ⟨hkey, hkeys⟩ := List.forall_mem_cons.mp hkeys
    obtain ⟨hf, hwritable⟩ := List.forall_mem_cons.mp hwritable
    rw [List.foldlM_cons, Option.bind_eq_bind, Option.bind_eq_some_iff] at h
    obtain ⟨r, hset, h⟩ := h
    rw [List.flatMap_cons]
    refine Reads.append (.line ?_ fun rest => ?_) (ih hkeys hwritable h)
    · simp [Section.writeField]
    · rw [line?_field hkey hf, hset, Option.map_some]

theorem reads_section {s : Section} (hn : s.IsNamed) (hw : s.isWritable = true) {p q : Progress}
    (h : p.perform? s = some q) : p.Reads s.write q := by
  obtain ⟨r, henter, hfields⟩ := Option.bind_eq_some_iff.mp h
  have hwritable : ∀ f ∈ s.fields, f.2.isWritable = true := List.all_eq_true.mp hw
  refine Reads.append (.line ?_ fun rest => ?_) (reads_fields hn.isBareKey_fields hwritable hfields)
  · unfold Section.header
    split <;> simp
  · rw [line?_header hn, henter, Option.map_some]

theorem reads_sections {sections : List Section} (hn : ∀ s ∈ sections, s.IsNamed)
    (hw : ∀ s ∈ sections, s.isWritable = true) {p q : Progress} (h : sections.foldlM perform? p = some q) :
    p.Reads (List.intercalate ['\n'] (sections.map Section.write)) q := by
  induction sections generalizing p with
  | nil =>
    cases h
    exact .nil _
  | cons s sections ih =>
    obtain ⟨hs, hn⟩ := List.forall_mem_cons.mp hn
    obtain ⟨hwritable, hw⟩ := List.forall_mem_cons.mp hw
    rw [List.foldlM_cons, Option.bind_eq_bind, Option.bind_eq_some_iff] at h
    obtain ⟨r, hperform, h⟩ := h
    have hfirst := reads_section hs hwritable hperform
    have hrest := ih hn hw h
    rw [List.map_cons]
    by_cases hlast : sections = []
    · subst hlast
      cases h
      rw [List.map_nil, List.intercalate_singleton]
      exact hfirst
    · have hne : sections.map Section.write ≠ [] := by simpa using hlast
      have hblank : r.Reads ['\n'] r := .line (List.cons_ne_nil _ _) fun rest => line?_blank r rest
      rw [List.intercalate_cons_of_ne_nil hne]
      exact (hfirst.append hblank).append hrest

end Progress

theorem dropMark_sections (sections : List Section) :
    dropMark (List.intercalate ['\n'] (sections.map Section.write)) =
      List.intercalate ['\n'] (sections.map Section.write) := by
  have hhead : ∀ s : Section, ∃ tail, s.write = '[' :: tail := by
    intro s
    unfold Section.write Section.header
    split <;> exact ⟨_, rfl⟩
  match sections with
  | [] => rfl
  | [s] =>
    obtain ⟨tail, hs⟩ := hhead s
    rw [List.map_cons, List.map_nil, List.intercalate_singleton, hs]
    rfl
  | s :: t :: sections =>
    obtain ⟨tail, hs⟩ := hhead s
    rw [List.map_cons, List.map_cons, List.intercalate_cons_cons, hs]
    rfl

/-- The tree of what is written of sections has the tables that they open and the keys that they set. -/
theorem read?_write {sections : List Section} {text : List Char} (hwrite : write? sections = some text)
    (hn : ∀ s ∈ sections, s.IsNamed) {p : Progress}
    (hp : sections.foldlM Progress.perform? .start = some p) : read? text = some p.root.tree := by
  unfold write? at hwrite
  split at hwrite
  · next hw =>
    cases hwrite
    obtain ⟨n, hle, hread⟩ := Progress.reads_sections hn (List.all_eq_true.mp hw) hp
    generalize htext : List.intercalate ['\n'] (sections.map Section.write) = text at hle hread
    have hmark : dropMark text = text := by
      rw [← htext]
      exact dropMark_sections sections
    obtain ⟨fuel, hfuel⟩ := Nat.exists_eq_add_of_le (Nat.le_succ_of_le hle)
    have hlines := hread fuel []
    rw [List.append_nil, Nat.add_comm, ← hfuel] at hlines
    rw [read?, hmark]
    simp only [hlines]
    cases fuel <;> rfl
  · cases hwrite

end CoreWarden.Toml
