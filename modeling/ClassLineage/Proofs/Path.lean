import ClassLineage.Path
import ClassLineage.Proofs.Text.Split

/-!
# Paths and their texts

A path is read back from its text.  Of the paths that are read from texts, a path below
another one is again such a path.

## Main definitions

* `Path.IsPlain`, `Path.IsName` — a part that paths have, and one that names an entry.
* `Path.IsRead` — a path as texts write them.
* `Path.below` — a place below a path.

## Main results

* `Path.isRead_ofText` — what a text writes is such a path.
* `Path.ofText_toText` — **a path is read back from its text.**
-/

namespace ClassLineage
namespace Path

open Text

/-- A part that paths have: it says something, and holds no slash. -/
structure IsPlain (part : String) : Prop where
  /-- The part says something. -/
  isPart : isPart part = true
  /-- The part holds no slash. -/
  noSlash : ∀ c ∈ part.toList, c ≠ '/'

instance : DecidablePred IsPlain := fun part =>
  decidable_of_iff (Path.isPart part = true ∧ '/' ∉ part.toList)
    ⟨fun h => ⟨h.1, fun _ hc heq => h.2 (heq ▸ hc)⟩,
      fun h => ⟨h.isPart, fun hc => h.noSlash _ hc rfl⟩⟩

/-- A part that names an entry of a directory: it is not the way up. -/
def IsName (part : String) : Prop := IsPlain part ∧ part ≠ ".."

instance : DecidablePred IsName := fun part =>
  inferInstanceAs (Decidable (IsPlain part ∧ part ≠ ".."))

/-- The path is one that a text writes. -/
def IsRead (p : Path) : Prop := ∀ part ∈ p.parts, IsPlain part

/-- The path of a place below a path. -/
def below (base : Path) (place : List String) : Path := ⟨base.lead, base.parts ++ place⟩

@[simp] theorem below_nil (p : Path) : p.below [] = p := by rw [below, List.append_nil]

theorem below_below (p : Path) (place more : List String) :
    (p.below place).below more = p.below (place ++ more) := by
  rw [below, below, below, List.append_assoc]

theorem child_eq_below (p : Path) (part : String) : p.child part = p.below [part] := rfl

theorem IsPlain.ne_empty {part : String} (h : IsPlain part) : part ≠ "" := by
  rintro rfl
  exact absurd h.isPart (by decide)

theorem IsPlain.ne_point {part : String} (h : IsPlain part) : part ≠ "." := by
  rintro rfl
  exact absurd h.isPart (by decide)

theorem IsRead.below {p : Path} (h : p.IsRead) {place : List String}
    (hplace : ∀ name ∈ place, IsPlain name) : (p.below place).IsRead := by
  intro part hpart
  rcases List.mem_append.mp hpart with hp | hp
  · exact h part hp
  · exact hplace part hp

/-- What a text writes. -/
theorem isRead_ofText (text : String) : (ofText text).IsRead := by
  intro part hpart
  obtain ⟨hmem, hpart⟩ := List.mem_filter.mp hpart
  exact ⟨hpart, fun c hc => by simpa using all_of_mem_splitAll hmem c hc⟩

theorem IsRead.join {base p : Path} (hb : base.IsRead) (hp : p.IsRead) : (base.join p).IsRead := by
  rw [Path.join]
  split
  · exact hp
  · exact hb.below hp

/-! ### Reading a text back -/

section Parts

variable {parts : List String}

theorem splitAll_parts (h : ∀ part ∈ parts, IsPlain part) (hne : parts ≠ []) :
    splitAll (· = '/') (String.intercalate "/" parts) = parts := by
  refine splitAll_intercalate rfl (by decide) hne fun part hpart c hc => ?_
  simpa using (h part hpart).noSlash c hc

theorem filter_splitAll_parts {keep : String → Bool} (h : ∀ part ∈ parts, IsPlain part)
    (hkeep : ∀ part ∈ parts, keep part = true) (hempty : keep "" = false) :
    (splitAll (· = '/') (String.intercalate "/" parts)).filter keep = parts := by
  by_cases hne : parts = []
  · subst hne
    rw [String.intercalate_nil]
    show [""].filter keep = []
    rw [List.filter_cons_of_neg (by simp [hempty]), List.filter_nil]
  · rw [splitAll_parts h hne, List.filter_eq_self]
    exact hkeep

theorem splitAll_slash (s : String) :
    splitAll (· = '/') ("/" ++ s) = "" :: splitAll (· = '/') s := by
  rw [splitAll, splitAll, String.toList_append]
  show (splitChars _ ('/' :: s.toList)).map String.ofList = _
  rw [splitChars]
  rfl

/-- Joined parts start with no slash. -/
theorem takeWhile_parts (h : ∀ part ∈ parts, IsPlain part) :
    (String.intercalate "/" parts).toList.takeWhile (· = '/') = [] := by
  cases parts with
  | nil => rfl
  | cons part parts =>
    have hplain := h part List.mem_cons_self
    obtain ⟨c, cs, hcs⟩ := List.exists_cons_of_ne_nil
      fun hnil => hplain.ne_empty (String.toList_eq_nil_iff.mp hnil)
    have hc : c ≠ '/' := hplain.noSlash c (hcs ▸ List.mem_cons_self)
    -- the first character of the whole is that of the first part, and no slash
    have hhead : ∃ ds, (String.intercalate "/" (part :: parts)).toList = c :: ds := by
      cases parts with
      | nil => exact ⟨cs, by rw [String.intercalate_singleton, hcs]⟩
      | cons other parts =>
        exact ⟨cs ++ _, by
          rw [String.intercalate_cons_cons, String.append_assoc, String.toList_append, hcs,
            List.cons_append]⟩
    obtain ⟨ds, hds⟩ := hhead
    rw [hds, List.takeWhile_cons_of_neg (by simpa using hc)]

end Parts

/-- The pieces of the text of a path are its parts, and empty ones. -/
theorem filter_splitAll_toText {p : Path} (h : p.IsRead) {keep : String → Bool}
    (hkeep : ∀ part ∈ p.parts, keep part = true) (hempty : keep "" = false)
    (hne : ¬(p.lead = .relative ∧ p.parts = [])) :
    (splitAll (· = '/') p.toText).filter keep = p.parts := by
  have hparts := filter_splitAll_parts h hkeep hempty
  have hdrop : ∀ s : String, (splitAll (· = '/') ("/" ++ s)).filter keep
      = (splitAll (· = '/') s).filter keep := fun s => by
    rw [splitAll_slash, List.filter_cons_of_neg (by simp [hempty])]
  rw [toText, if_neg hne]
  cases p.lead with
  | relative => rw [PathLead.text, String.empty_append, hparts]
  | root => rw [PathLead.text, hdrop, hparts]
  | doubleRoot =>
    have hsplit : PathLead.doubleRoot.text = "/" ++ "/" := rfl
    rw [hsplit, String.append_assoc, hdrop, hdrop, hparts]

/-- **A path is read back from its text.** -/
theorem ofText_toText {p : Path} (h : p.IsRead) : ofText p.toText = p := by
  by_cases hne : p.lead = .relative ∧ p.parts = []
  · obtain ⟨lead, parts⟩ := p
    obtain ⟨rfl, rfl⟩ := hne
    decide
  · have hparts := filter_splitAll_toText h (fun part hp => (h part hp).isPart) (by decide) hne
    have htake := takeWhile_parts h
    have hslash : ∀ s : String, ("/" ++ s).toList.takeWhile (· = '/')
        = '/' :: s.toList.takeWhile (· = '/') := fun s => by
      rw [String.toList_append]
      exact List.takeWhile_cons_of_pos rfl
    -- the slashes in front are those of the lead, since no part starts with one
    have hlead : leadOf (p.toText.toList.takeWhile (· = '/')).length = p.lead := by
      rw [toText, if_neg hne]
      cases p.lead with
      | relative => rw [PathLead.text, String.empty_append, htake]; rfl
      | root => rw [PathLead.text, hslash, htake]; rfl
      | doubleRoot =>
        have hsplit : PathLead.doubleRoot.text = "/" ++ "/" := rfl
        rw [hsplit, String.append_assoc, hslash, hslash, htake]
        rfl
    rw [ofText, hparts, hlead]

/-- Paths that are read back are told apart by their texts. -/
theorem toText_inj {p q : Path} (hp : p.IsRead) (hq : q.IsRead) : p.toText = q.toText ↔ p = q := by
  refine ⟨fun htext => ?_, fun h => h ▸ rfl⟩
  rw [← ofText_toText hp, htext, ofText_toText hq]

/-- Apart from slashes and points, the characters of the text of a path are those of its
parts. -/
theorem mem_toText {p : Path} {c : Char} (hslash : c ≠ '/') (hpoint : c ≠ '.') :
    c ∈ p.toText.toList ↔ ∃ part ∈ p.parts, c ∈ part.toList := by
  have hparts : ∀ parts : List String, c ∈ (String.intercalate "/" parts).toList
      ↔ ∃ part ∈ parts, c ∈ part.toList := by
    intro parts
    induction parts with
    | nil => simp
    | cons part parts ih =>
      cases parts with
      | nil => simp
      | cons other parts =>
        rw [String.intercalate_cons_cons, String.toList_append, String.toList_append,
          List.mem_append, List.mem_append, ih]
        simp [hslash]
  rw [toText]
  split
  · next hempty => simp [hempty.2, hpoint]
  · rw [String.toList_append, List.mem_append, hparts]
    cases p.lead <;> simp [PathLead.text, hslash]

/-! ### Joining -/

/-- A path that is joined to no parts of a relative path stays as it is. -/
theorem join_of_isAbsolute {base p : Path} (h : p.isAbsolute = true) : base.join p = p := by
  rw [join, if_pos h]

theorem join_of_relative {base p : Path} (h : p.isAbsolute = false) :
    base.join p = base.below p.parts := by
  rw [join, if_neg (by simp [h])]
  rfl

end Path
end ClassLineage
