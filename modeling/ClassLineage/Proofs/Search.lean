import ClassLineage.Search
import ClassLineage.Proofs.Except

/-!
# The files of a directory, one after the other

However a pool completes its tasks, it hands back what they give in the order of their
numbers.  So a search may read files one after the other, and if all that count can be
read, it gives what they declare.

## Main results

* `Search.find?_complete` — what the table holds of a task.
* `Search.scanPooled_eq` — **a pool gives what reading one file after the other gives.**
* `Search.scanDirectoryBy_eq` — **so does a search, in whatever order its pool completes.**
* `Search.scanDirectory_of_scanFile` — what a search gives if all files that count are there.
* `Search.exists_of_mem_scanDirectory` — whatever a search gives, some file declares.
-/

namespace ClassLineage
namespace Search

variable {tokens : Tokenizer}

/-! ### The pool -/

section Pool

variable {α : Type} {task : Nat → Option α} {order : List Nat} {i n : Nat}

/-- The table holds what a task gives if it has been completed, however often. -/
theorem find?_complete :
    (complete task order).find? (fun e => e.1 = i)
      = if i ∈ order then (task i).map (i, ·) else none := by
  induction order with
  | nil => rfl
  | cons j order ih =>
    have hrest : complete task (j :: order)
        = ((task j).map (j, ·)).toList ++ complete task order := by
      rw [complete, List.filterMap_cons]
      cases task j <;> rfl
    rw [hrest, List.find?_append, ih]
    -- the first entry of the task counts, and all that it gives are the same
    by_cases hij : j = i
    · subst hij
      rw [if_pos List.mem_cons_self]
      cases htask : task j with
      | none => simp
      | some a => simp
    · have hmem : i ∈ j :: order ↔ i ∈ order := by
        rw [List.mem_cons, or_iff_right fun h => hij h.symm]
      simp only [hmem]
      cases htask : task j with
      | none => simp
      | some a => simp [hij]

/-- What is handed back stands in the order of the tasks. -/
theorem handBack_complete (h : ∀ i < n, i ∈ order) :
    handBack n (complete task order) = (List.range n).filterMap task := by
  rw [handBack]
  refine List.filterMap_congr fun i hi => ?_
  rw [find?_complete, if_pos (h i (List.mem_range.mp hi))]
  cases task i <;> rfl

end Pool

theorem filterMap_range_map {α β : Type} (f : α → β) (l : List α) :
    (List.range l.length).filterMap (fun i => l[i]?.map f) = l.map f := by
  induction l with
  | nil => rfl
  | cons a l ih =>
    rw [List.length_cons, List.range_succ_eq_map, List.filterMap_cons_some (by rfl),
      List.filterMap_map, List.map_cons, ← ih]
    rfl

section Order

variable {s : Search tokens} {order : List Nat} {paths : List String}

/-- **A pool gives what reading one file after the other gives,** if it completes them
all. -/
theorem scanPooled_eq (h : ∀ i < paths.length, i ∈ order) :
    s.scanPooled order paths = paths.map s.scanFile := by
  rw [scanPooled, handBack_complete h, filterMap_range_map]

/-- **A search gives what reading one file after the other gives,** in whatever order its
pool completes them. -/
theorem scanDirectoryBy_eq {schedule : Nat → List Nat} (h : ∀ n, ∀ i < n, i ∈ schedule n)
    (directory : Path) :
    s.scanDirectoryBy schedule directory
      = (do return (← (← s.phpFiles directory).mapM s.scanFile).flatten) := by
  rw [scanDirectoryBy]
  refine bind_congr fun paths => ?_
  have hpool : (s.scanPooled (schedule paths.length) paths).mapM id = paths.mapM s.scanFile := by
    rw [scanPooled_eq (h _), List.mapM_map]
    rfl
  rw [hpool, ite_self]

end Order

/-! ### Files that are there -/

section Texts

variable {s : Search tokens} {directory : Path} {listing paths : List String}

theorem scanFile_of_readText {path source : String} (h : s.files.readText path = .ok source) :
    s.scanFile path = .ok (scanSource tokens source path) := by
  rw [scanFile, h]

/-- A file that is not there any more counts as one that declares nothing. -/
theorem scanFile_of_isVanished {path : String} {e : FileError}
    (h : s.files.readText path = .error (.file e)) (hgone : e.isVanished = true) :
    s.scanFile path = .ok [] := by
  rw [scanFile, h]
  exact if_pos hgone

theorem phpFiles_of_listFiles (h : s.files.listFiles directory = .ok listing) :
    s.phpFiles directory
      = .ok (listing.filter (keeps directory s.config.excludes s.config.extensions)) := by
  unfold phpFiles walk
  rw [h]
  rfl

theorem scanDirectory_of_phpFiles (h : s.phpFiles directory = .ok paths) :
    s.scanDirectory directory = (paths.mapM s.scanFile).map List.flatten := by
  rw [scanDirectory, scanDirectoryBy_eq fun _ _ => List.mem_range.mpr, h]
  show paths.mapM s.scanFile >>= (fun perFile => pure perFile.flatten) = _
  cases paths.mapM s.scanFile <;> rfl

theorem scanDirectory_of_phpFiles_error {e : AccessError} (h : s.phpFiles directory = .error e) :
    s.scanDirectory directory = .error e := by
  rw [scanDirectory, scanDirectoryBy_eq fun _ _ => List.mem_range.mpr, h]
  rfl

/-- What is said of the listing is said of the search. -/
theorem scanDirectory_of_listFiles_error {e : AccessError}
    (h : s.files.listFiles directory = .error e) : s.scanDirectory directory = .error e := by
  apply scanDirectory_of_phpFiles_error
  unfold phpFiles walk
  rw [h]
  rfl

/-- A search gives what the files that count declare, if their texts are there. -/
theorem scanDirectory_of_scanFile (hlist : s.files.listFiles directory = .ok listing)
    {declared : String → List Declaration}
    (h : ∀ p ∈ listing, keeps directory s.config.excludes s.config.extensions p = true →
      s.scanFile p = .ok (declared p)) :
    s.scanDirectory directory
      = .ok ((listing.filter (keeps directory s.config.excludes s.config.extensions)).flatMap
          declared) := by
  rw [scanDirectory_of_phpFiles (phpFiles_of_listFiles hlist),
    Except.mapM_eq_ok fun p hp => h p (List.mem_filter.mp hp).1 (List.mem_filter.mp hp).2]
  rfl

/-- The same where the files are listed under other paths than those by which they are known. -/
theorem scanDirectory_of_map {keys : List String} {path : String → String}
    (hlist : s.files.listFiles directory = .ok (keys.map path))
    {declared : String → List Declaration}
    (h : ∀ key ∈ keys, s.scanFile (path key) = .ok (declared key)) :
    s.scanDirectory directory
      = .ok ((keys.filter fun key =>
          keeps directory s.config.excludes s.config.extensions (path key)).flatMap declared) := by
  rw [scanDirectory_of_phpFiles (phpFiles_of_listFiles hlist), List.filter_map,
    Except.mapM_map_eq_ok fun key hkey => h key (List.mem_filter.mp hkey).1]
  rfl

end Texts

/-! ### Where declarations come from -/

section Found

variable {s : Search tokens} {declared : List Declaration} {d : Declaration}

/-- What a file gives is declared by the text that is read of it. -/
theorem exists_of_mem_scanFile {path : String} (h : s.scanFile path = .ok declared)
    (hd : d ∈ declared) :
    ∃ source, s.files.readText path = .ok source ∧ d ∈ scanSource tokens source path := by
  rw [scanFile] at h
  cases hread : s.files.readText path with
  | ok source =>
    rw [hread] at h
    exact ⟨source, rfl, Except.ok.inj h ▸ hd⟩
  | error e =>
    rw [hread] at h
    -- a file that has gone gives nothing, and any other error is passed on
    split at h
    · next hok => cases hok
    · next e' _ =>
      by_cases hgone : e'.isVanished = true
      · rw [if_pos hgone] at h
        obtain rfl := Except.ok.inj h
        exact absurd hd List.not_mem_nil
      · rw [if_neg hgone] at h
        cases h
    · cases h

/-- **Whatever a search gives, some file declares.** -/
theorem exists_of_mem_scanDirectory {directory : Path}
    (h : s.scanDirectory directory = .ok declared) (hd : d ∈ declared) :
    ∃ path source, s.files.readText path = .ok source ∧ d ∈ scanSource tokens source path := by
  rw [scanDirectory, scanDirectoryBy_eq fun _ _ => List.mem_range.mpr] at h
  obtain ⟨paths, -, h⟩ := Except.bind_eq_ok_iff.mp h
  obtain ⟨perFile, hfiles, h⟩ := Except.bind_eq_ok_iff.mp h
  obtain rfl := Except.ok.inj h
  obtain ⟨ofFile, hmem, hd⟩ := List.mem_flatten.mp hd
  obtain ⟨path, -, hscan⟩ := Except.exists_of_mem_mapM hfiles hmem
  exact ⟨path, exists_of_mem_scanFile hscan hd⟩

end Found

end Search
end ClassLineage
