import ClassLineage.Proofs.Entries
import ClassLineage.Proofs.Json.Text
import Mathlib.Data.List.TakeWhile

/-!
# Reading back written values

A value without numbers is read back from the text that it is written as, at whatever level of
indentation it stands and whatever follows it.  The reader needs no more steps than the text has
characters.

## Main definitions

* `Json.IsPlain` — the value holds no numbers, and each key of its objects once.
* `Json.ReadsBack` — the value is read back as it is written.

## Main results

* `Json.readItems_append`, `Json.readEntries_append` — lists and objects are read back if what they
  hold is.
* `Json.IsPlain.isLaidOut` — only printed characters of ASCII are written, on lines.
* `Json.IsPlain.readsBack`, `Json.parse?_render_append` — **a value without numbers is read back.**
-/

namespace ClassLineage

namespace Json

/-- The value holds no numbers, and each key of its objects once. -/
inductive IsPlain : Json → Prop
  /-- No value is plain. -/
  | null : IsPlain .null
  /-- Truth values are plain. -/
  | bool (b : Bool) : IsPlain (.bool b)
  /-- Texts are plain. -/
  | str (s : String) : IsPlain (.str s)
  /-- A list of plain values is plain. -/
  | arr {items : List Json} (hitems : ∀ v ∈ items, IsPlain v) : IsPlain (.arr items)
  /-- An object of plain values is plain if each key is there once. -/
  | obj {entries : Entries Json} (hkeys : (Entries.keys entries).Nodup)
      (hentries : ∀ e ∈ entries, IsPlain e.2) : IsPlain (.obj entries)

variable {v : Json} {items : List Json} {entries done : Entries Json} {cs rest : List Char}
  {level fuel : Nat}

/-- The value is read back as it is written, at any level and whatever follows. -/
def ReadsBack (v : Json) : Prop :=
  ∀ level fuel rest, (chars level v).length ≤ fuel →
    readValue fuel (chars level v ++ rest) = some (v, rest)

/-! ### Blanks -/

/-- The characters start with one that is no blank and closes nothing. -/
def StartsValue (cs : List Char) : Prop :=
  ∃ c rest, cs = c :: rest ∧ isFormatBlank c = false ∧ c ≠ ']' ∧ c ≠ '\x7d'

theorem StartsValue.append (h : StartsValue cs) (rest : List Char) : StartsValue (cs ++ rest) := by
  obtain ⟨c, tail, rfl, hc⟩ := h
  exact ⟨c, tail ++ rest, rfl, hc⟩

theorem StartsValue.skipBlanks_eq (h : StartsValue cs) : skipBlanks cs = cs := by
  obtain ⟨c, tail, rfl, hblank, -⟩ := h
  unfold skipBlanks
  rw [List.dropWhile_cons_of_neg (by simp [hblank])]

/-- What starts a line is blank. -/
theorem skipBlanks_newline (level : Nat) (cs : List Char) :
    skipBlanks (newline level ++ cs) = skipBlanks cs := by
  unfold skipBlanks newline
  rw [List.cons_append, List.dropWhile_cons_of_pos (by decide), List.dropWhile_append_of_pos]
  intro c hc
  obtain rfl := List.eq_of_mem_replicate hc
  decide

theorem startsValue_textChars (s : String) : StartsValue (textChars s) := by
  unfold textChars
  exact ⟨_, _, rfl, by decide, by decide, by decide⟩

theorem IsPlain.startsValue (h : v.IsPlain) (level : Nat) : StartsValue (chars level v) := by
  cases h with
  | null => exact ⟨_, _, rfl, by decide, by decide, by decide⟩
  | bool b => cases b <;> exact ⟨_, _, rfl, by decide, by decide, by decide⟩
  | str s =>
    rw [chars]
    exact startsValue_textChars s
  | @arr items _ =>
    cases items with
    | nil => exact ⟨_, _, rfl, by decide, by decide, by decide⟩
    | cons v items =>
      rw [chars]
      exact ⟨_, _, rfl, by decide, by decide, by decide⟩
  | @obj entries _ _ =>
    cases entries with
    | nil => exact ⟨_, _, rfl, by decide, by decide, by decide⟩
    | cons e entries =>
      rw [chars]
      exact ⟨_, _, rfl, by decide, by decide, by decide⟩

/-! ### Texts -/

theorem length_textChars (s : String) : s.toList.length + 2 ≤ (textChars s).length := by
  have hle := length_le_flatMap_escapeChar s.toList
  unfold textChars
  simp only [List.length_cons, List.length_append, List.length_nil]
  omega

/-- A text is read back after its opening quote. -/
theorem readText_textChars (s : String) (fuel : Nat) (hfuel : s.toList.length < fuel)
    (rest : List Char) :
    ∃ cs, textChars s ++ rest = '\x22' :: cs ∧ readText fuel [] cs = some (s, rest) := by
  refine ⟨s.toList.flatMap escapeChar ++ '\x22' :: rest, ?_, ?_⟩
  · unfold textChars
    simp
  · rw [readText_append s.toList [] rest hfuel]
    simp

theorem readsBack_str (s : String) : ReadsBack (.str s) := by
  intro level fuel rest hfuel
  have hlen := length_textChars s
  rw [chars] at hfuel ⊢
  cases fuel with
  | zero => omega
  | succ fuel =>
    obtain ⟨cs, hcs, hread⟩ := readText_textChars s fuel (by omega) rest
    rw [hcs, readValue, hread]
    rfl

/-! ### Lists -/

/-- A list that is not closed at once is read at its first item. -/
theorem readValue_list (h : StartsValue (skipBlanks cs)) (fuel : Nat) :
    readValue (fuel + 1) ('[' :: cs) = readItems fuel [] (skipBlanks cs) := by
  obtain ⟨c, tail, hcs, -, hclose, -⟩ := h
  rw [readValue, hcs]
  split
  · next heq => exact absurd (List.cons.inj heq).1 hclose
  · rfl

/-- After an item that is followed by a comma, the rest of a list is read at the next item. -/
theorem readItems_comma {done : List Json} (h : readValue fuel cs = some (v, ',' :: rest)) :
    readItems (fuel + 1) done cs = readItems fuel (v :: done) (skipBlanks rest) := by
  rw [readItems, h]
  rfl

/-- After the last item a list is closed. -/
theorem readItems_close {done : List Json}
    (h : readValue fuel cs = some (v, newline level ++ ']' :: rest)) :
    readItems (fuel + 1) done cs = some (.arr (v :: done).reverse, rest) := by
  rw [readItems, h]
  simp only [skipBlanks_newline]
  rfl

/-- **The items of a list are read back if each of them is.** -/
theorem readItems_append (hplain : ∀ w ∈ v :: items, w.IsPlain)
    (hreads : ∀ w ∈ v :: items, ReadsBack w) (fuel level outer : Nat) (done : List Json)
    (rest : List Char)
    (hfuel : (chars level v ++ itemChars level items).length < fuel) :
    readItems fuel done (chars level v ++ (itemChars level items ++ (newline outer ++ ']' :: rest)))
      = some (.arr (done.reverse ++ v :: items), rest) := by
  induction items generalizing v fuel done with
  | nil =>
    cases fuel with
    | zero => simp at hfuel
    | succ fuel =>
      rw [itemChars, List.append_nil] at hfuel
      have hv := hreads v List.mem_cons_self level fuel (newline outer ++ ']' :: rest) (by omega)
      rw [itemChars, List.nil_append, readItems_close hv, List.reverse_cons]
  | cons w items ih =>
    cases fuel with
    | zero => simp at hfuel
    | succ fuel =>
      rw [itemChars] at hfuel ⊢
      simp only [List.length_append, List.length_cons] at hfuel
      have hv := hreads v List.mem_cons_self level fuel
        (',' :: (newline level ++ (chars level w ++ (itemChars level items
          ++ (newline outer ++ ']' :: rest))))) (by omega)
      have hw := (hplain w (List.mem_cons_of_mem _ List.mem_cons_self)).startsValue level
      have hrest := ih (fun u hu => hplain u (List.mem_cons_of_mem _ hu))
        (fun u hu => hreads u (List.mem_cons_of_mem _ hu)) fuel (v :: done)
        (by simp only [List.length_append]; omega)
      simp only [List.cons_append, List.append_assoc]
      rw [readItems_comma hv, skipBlanks_newline, (hw.append _).skipBlanks_eq, hrest,
        List.reverse_cons, List.append_assoc, List.singleton_append]

theorem readsBack_arr (hplain : ∀ w ∈ items, w.IsPlain) (hreads : ∀ w ∈ items, ReadsBack w) :
    ReadsBack (.arr items) := by
  intro level fuel rest hfuel
  cases items with
  | nil =>
    rw [chars] at hfuel ⊢
    cases fuel with
    | zero => simp at hfuel
    | succ fuel => rfl
  | cons v items =>
    have hv := (hplain v List.mem_cons_self).startsValue (level + 1)
    rw [chars] at hfuel ⊢
    simp only [List.length_append, List.length_cons] at hfuel
    cases fuel with
    | zero => omega
    | succ fuel =>
      have hitems := readItems_append hplain hreads fuel (level + 1) level [] rest
        (by simp only [List.length_append]; omega)
      have hstart := hv.append (itemChars (level + 1) items ++ (newline level ++ ']' :: rest))
      have hskip : skipBlanks (newline (level + 1) ++ (chars (level + 1) v
          ++ (itemChars (level + 1) items ++ (newline level ++ ']' :: rest))))
          = chars (level + 1) v
            ++ (itemChars (level + 1) items ++ (newline level ++ ']' :: rest)) := by
        rw [skipBlanks_newline, hstart.skipBlanks_eq]
      rw [← hskip] at hstart
      simp only [List.cons_append, List.append_assoc, List.nil_append]
      rw [readValue_list hstart, hskip, hitems]
      rfl

/-! ### Objects -/

/-- An object that is not closed at once is read at its first key. -/
theorem readValue_object (h : StartsValue (skipBlanks cs)) (fuel : Nat) :
    readValue (fuel + 1) ('\x7b' :: cs) = readEntries fuel [] (skipBlanks cs) := by
  obtain ⟨c, tail, hcs, -, -, hclose⟩ := h
  rw [readValue, hcs]
  split
  · next heq => exact absurd (List.cons.inj heq).1 hclose
  · rfl

/-- An entry as it stands at a level of indentation. -/
def entryAt (level : Nat) (key : String) (v : Json) : List Char :=
  textChars key ++ (':' :: ' ' :: chars level v)

theorem startsValue_entryAt (level : Nat) (key : String) (v : Json) :
    StartsValue (entryAt level key v) := (startsValue_textChars key).append _

/-- An entry starts with its key, and its value is read back from what follows the colon. -/
theorem entryAt_parts {key : String} (hv : v.IsPlain) (hread : ReadsBack v) (level : Nat)
    (hfuel : (entryAt level key v).length ≤ fuel) (rest : List Char) :
    ∃ cs colon, entryAt level key v ++ rest = '\x22' :: cs
      ∧ readText fuel [] cs = some (key, ':' :: colon)
      ∧ readValue fuel (skipBlanks colon) = some (v, rest) := by
  have hlen := length_textChars key
  have hstart := (hv.startsValue level).append rest
  unfold entryAt at hfuel ⊢
  simp only [List.length_append, List.length_cons] at hfuel
  obtain ⟨cs, hcs, hkey⟩ := readText_textChars key fuel (by omega)
    (':' :: ' ' :: (chars level v ++ rest))
  refine ⟨cs, ' ' :: (chars level v ++ rest), ?_, hkey, ?_⟩
  · rw [List.append_assoc]
    exact hcs
  · have hspace : skipBlanks (' ' :: (chars level v ++ rest)) = chars level v ++ rest :=
      hstart.skipBlanks_eq
    rw [hspace]
    exact hread level fuel rest (by omega)

/-- After an entry that is followed by a comma, the rest of an object is read at the next key. -/
theorem readEntries_comma {key : String} (hv : v.IsPlain) (hread : ReadsBack v) (level : Nat)
    (hfuel : (entryAt level key v).length ≤ fuel) (done : Entries Json) (rest : List Char) :
    readEntries (fuel + 1) done (entryAt level key v ++ ',' :: rest)
      = readEntries fuel (done.put key v) (skipBlanks rest) := by
  obtain ⟨cs, colon, hcs, hkey, hvalue⟩ := entryAt_parts hv hread level hfuel (',' :: rest)
  have hcolon : skipBlanks (':' :: colon) = ':' :: colon := rfl
  rw [hcs, readEntries, hkey]
  simp only [hcolon, hvalue]
  rfl

/-- After the last entry an object is closed. -/
theorem readEntries_close {key : String} (hv : v.IsPlain) (hread : ReadsBack v) (level outer : Nat)
    (hfuel : (entryAt level key v).length ≤ fuel) (done : Entries Json) (rest : List Char) :
    readEntries (fuel + 1) done (entryAt level key v ++ (newline outer ++ '\x7d' :: rest))
      = some (.obj (done.put key v), rest) := by
  obtain ⟨cs, colon, hcs, hkey, hvalue⟩ := entryAt_parts hv hread level hfuel
    (newline outer ++ '\x7d' :: rest)
  have hcolon : skipBlanks (':' :: colon) = ':' :: colon := rfl
  rw [hcs, readEntries, hkey]
  simp only [hcolon, hvalue, skipBlanks_newline]
  rfl

/-- **The entries of an object are read back if their values are,** and no key is there twice. -/
theorem readEntries_append {key : String} (hplain : ∀ e ∈ (key, v) :: entries, e.2.IsPlain)
    (hreads : ∀ e ∈ (key, v) :: entries, ReadsBack e.2) (fuel level outer : Nat)
    (done : Entries Json) (rest : List Char)
    (hkeys : (Entries.keys (done ++ (key, v) :: entries)).Nodup)
    (hfuel : (entryAt level key v ++ entryChars level entries).length < fuel) :
    readEntries fuel done
        (entryAt level key v ++ (entryChars level entries ++ (newline outer ++ '\x7d' :: rest)))
      = some (.obj (done ++ (key, v) :: entries), rest) := by
  induction entries generalizing key v fuel done with
  | nil =>
    have hv : v.IsPlain := hplain _ List.mem_cons_self
    have hread : ReadsBack v := hreads _ List.mem_cons_self
    cases fuel with
    | zero => simp at hfuel
    | succ fuel =>
      have hnew := Entries.not_mem_of_nodup hkeys
      rw [entryChars, List.append_nil] at hfuel
      rw [entryChars, List.nil_append, readEntries_close hv hread level outer (by omega),
        Entries.put_of_not_mem hnew]
  | cons e entries ih =>
    have hv : v.IsPlain := hplain _ List.mem_cons_self
    have hread : ReadsBack v := hreads _ List.mem_cons_self
    cases fuel with
    | zero => simp at hfuel
    | succ fuel =>
      obtain ⟨next, w⟩ := e
      have hnew := Entries.not_mem_of_nodup hkeys
      have hentry : entryChars level ((next, w) :: entries)
          = ',' :: (newline level ++ (entryAt level next w ++ entryChars level entries)) := by
        rw [entryChars, entryAt]
        simp
      rw [hentry] at hfuel ⊢
      simp only [List.length_append, List.length_cons] at hfuel
      have hrest := ih (fun u hu => hplain u (List.mem_cons_of_mem _ hu))
        (fun u hu => hreads u (List.mem_cons_of_mem _ hu)) fuel (done ++ [(key, v)])
        (by simpa using hkeys) (by simp only [List.length_append]; omega)
      simp only [List.cons_append, List.append_assoc]
      rw [readEntries_comma hv hread level (by omega), skipBlanks_newline,
        ((startsValue_entryAt level next w).append _).skipBlanks_eq, Entries.put_of_not_mem hnew,
        hrest, List.append_assoc, List.singleton_append]

theorem readsBack_obj (hkeys : (Entries.keys entries).Nodup)
    (hplain : ∀ e ∈ entries, e.2.IsPlain) (hreads : ∀ e ∈ entries, ReadsBack e.2) :
    ReadsBack (.obj entries) := by
  intro level fuel rest hfuel
  cases entries with
  | nil =>
    rw [chars] at hfuel ⊢
    cases fuel with
    | zero => simp at hfuel
    | succ fuel => rfl
  | cons e entries =>
    obtain ⟨key, v⟩ := e
    have hchars : chars level (.obj ((key, v) :: entries))
        = '\x7b' :: (newline (level + 1) ++ (entryAt (level + 1) key v
          ++ (entryChars (level + 1) entries ++ (newline level ++ ['\x7d'])))) := by
      rw [chars, entryAt]
      simp
    rw [hchars] at hfuel ⊢
    simp only [List.length_append, List.length_cons] at hfuel
    cases fuel with
    | zero => omega
    | succ fuel =>
      have hentries := readEntries_append hplain hreads fuel (level + 1) level [] rest hkeys
        (by simp only [List.length_append]; omega)
      have hstart := (startsValue_entryAt (level + 1) key v).append
        (entryChars (level + 1) entries ++ (newline level ++ '\x7d' :: rest))
      have hskip : skipBlanks (newline (level + 1) ++ (entryAt (level + 1) key v
          ++ (entryChars (level + 1) entries ++ (newline level ++ '\x7d' :: rest))))
          = entryAt (level + 1) key v
            ++ (entryChars (level + 1) entries ++ (newline level ++ '\x7d' :: rest)) := by
        rw [skipBlanks_newline, hstart.skipBlanks_eq]
      rw [← hskip] at hstart
      simp only [List.cons_append, List.append_assoc, List.nil_append]
      rw [readValue_object hstart, hskip, hentries]
      rfl

/-! ### Values -/

/-- **A value without numbers is read back as it is written.**  The induction is on the value. -/
theorem IsPlain.readsBack (h : v.IsPlain) : ReadsBack v := by
  induction h with
  | null =>
    intro level fuel rest hfuel
    cases fuel with
    | zero => simp [chars] at hfuel
    | succ fuel => rfl
  | bool b =>
    intro level fuel rest hfuel
    cases fuel with
    | zero => cases b <;> simp [chars] at hfuel
    | succ fuel => cases b <;> rfl
  | str s => exact readsBack_str s
  | arr hitems ih => exact readsBack_arr hitems ih
  | obj hkeys hentries ih => exact readsBack_obj hkeys hentries ih

/-- **The text of a value without numbers is read as this value,** whatever blanks follow it. -/
theorem parse?_render_append (h : v.IsPlain) (hblank : ∀ c ∈ rest, isFormatBlank c = true) :
    parse? (render v ++ String.ofList rest) = some v := by
  have hread := h.readsBack 0 ((chars 0 v ++ rest).length + 1) rest
    (by rw [List.length_append]; omega)
  have hskip : skipBlanks rest = [] := List.dropWhile_eq_nil_iff.mpr hblank
  unfold parse? render
  rw [String.toList_append, String.toList_ofList, String.toList_ofList,
    ((h.startsValue 0).append rest).skipBlanks_eq, hread]
  dsimp only
  rw [hskip]
  rfl

theorem parse?_render (h : v.IsPlain) : parse? (render v) = some v := by
  have hread := parse?_render_append h (List.forall_mem_nil _)
  rwa [String.ofList_nil, String.append_empty] at hread

/-! ### Characters -/

/-- The character ends a line or is printed. -/
def IsLaidOut (c : Char) : Prop := c = '\n' ∨ IsPrinted c

instance : DecidablePred IsLaidOut := fun c => inferInstanceAs (Decidable (c = '\n' ∨ IsPrinted c))

/-- Written characters are looked at one by one. -/
theorem isLaidOut_of_all (h : cs.all (fun c => decide (IsLaidOut c)) = true) :
    ∀ c ∈ cs, IsLaidOut c := by
  intro c hc
  exact of_decide_eq_true (List.all_eq_true.mp h c hc)

theorem isLaidOut_newline : ∀ c ∈ newline level, IsLaidOut c := by
  intro c hc
  unfold newline at hc
  rcases List.mem_cons.mp hc with rfl | hc
  · decide
  · obtain rfl := List.eq_of_mem_replicate hc
    decide

theorem isLaidOut_textChars (s : String) : ∀ c ∈ textChars s, IsLaidOut c := by
  intro c hc
  unfold textChars at hc
  rw [List.cons_append, List.mem_cons, List.mem_append, List.mem_singleton, List.mem_flatMap] at hc
  rcases hc with rfl | ⟨d, -, hc⟩ | rfl
  · decide
  · exact Or.inr (isPrinted_escapeChar hc)
  · decide

theorem isLaidOut_itemChars (h : ∀ w ∈ items, ∀ level, ∀ c ∈ chars level w, IsLaidOut c) :
    ∀ c ∈ itemChars level items, IsLaidOut c := by
  induction items with
  | nil => simp [itemChars]
  | cons v items ih =>
    have ih := ih fun w hw => h w (List.mem_cons_of_mem _ hw)
    intro c hc
    rw [itemChars] at hc
    simp only [List.cons_append, List.mem_cons, List.mem_append] at hc
    rcases hc with rfl | (hc | hc) | hc
    · decide
    · exact isLaidOut_newline c hc
    · exact h v List.mem_cons_self level c hc
    · exact ih c hc

theorem isLaidOut_entryChars (h : ∀ e ∈ entries, ∀ level, ∀ c ∈ chars level e.2, IsLaidOut c) :
    ∀ c ∈ entryChars level entries, IsLaidOut c := by
  induction entries with
  | nil => simp [entryChars]
  | cons e entries ih =>
    have ih := ih fun w hw => h w (List.mem_cons_of_mem _ hw)
    obtain ⟨key, v⟩ := e
    intro c hc
    rw [entryChars] at hc
    simp only [List.cons_append, List.mem_cons, List.mem_append, List.not_mem_nil, or_false] at hc
    rcases hc with rfl | ((((hc | hc) | rfl | rfl) | hc) | hc)
    · decide
    · exact isLaidOut_newline c hc
    · exact isLaidOut_textChars key c hc
    · decide
    · decide
    · exact h _ List.mem_cons_self level c hc
    · exact ih c hc

/-- **Only printed characters of ASCII are written, on lines.** -/
theorem IsPlain.isLaidOut (h : v.IsPlain) (level : Nat) : ∀ c ∈ chars level v, IsLaidOut c := by
  induction h generalizing level with
  | null => exact isLaidOut_of_all rfl
  | bool b => cases b <;> exact isLaidOut_of_all rfl
  | str s =>
    rw [chars]
    exact isLaidOut_textChars s
  | @arr items _ ih =>
    cases items with
    | nil => exact isLaidOut_of_all rfl
    | cons v items =>
      intro c hc
      have hitems : ∀ c ∈ itemChars (level + 1) items, IsLaidOut c :=
        isLaidOut_itemChars fun w hw level => ih w (List.mem_cons_of_mem _ hw) level
      rw [chars] at hc
      simp only [List.cons_append, List.mem_cons, List.mem_append, List.not_mem_nil, or_false] at hc
      rcases hc with rfl | (((hc | hc) | hc) | hc) | rfl
      · decide
      · exact isLaidOut_newline c hc
      · exact ih v List.mem_cons_self (level + 1) c hc
      · exact hitems c hc
      · exact isLaidOut_newline c hc
      · decide
  | @obj entries _ _ ih =>
    cases entries with
    | nil => exact isLaidOut_of_all rfl
    | cons e entries =>
      intro c hc
      have hentries : ∀ c ∈ entryChars (level + 1) entries, IsLaidOut c :=
        isLaidOut_entryChars fun w hw level => ih w (List.mem_cons_of_mem _ hw) level
      obtain ⟨key, v⟩ := e
      rw [chars] at hc
      simp only [List.cons_append, List.mem_cons, List.mem_append, List.not_mem_nil, or_false] at hc
      rcases hc with rfl | (((((hc | hc) | rfl | rfl) | hc) | hc) | hc) | rfl
      · decide
      · exact isLaidOut_newline c hc
      · exact isLaidOut_textChars key c hc
      · decide
      · decide
      · exact ih _ List.mem_cons_self (level + 1) c hc
      · exact hentries c hc
      · exact isLaidOut_newline c hc
      · decide

end Json
end ClassLineage
