import ClassLineage.Filesystem.Memory
import ClassLineage.Proofs.Search
import Mathlib.Logic.Relation

/-!
# Pools at work

A pool has tasks that wait, tasks that workers are at, and tasks that are completed.  Who
submitted the tasks takes their results in order, waits for each that is missing and stops at
the first failure; from then on tasks that still wait may be dropped.  Workers may start and
finish tasks in any order: there is one outcome, that of doing one task after the other.

## Main definitions

* `Search.Pool`, `Search.Pool.Step` — a pool, and what may happen next in it.
* `Search.Pool.outcome?` — the outcome of all tasks, once it is known.
* `Search.ScansTo` — an outcome that the search of a directory may come to.
* `Search.failure?`, `Search.declarationsOf` — what a file ends a search with, or adds to it.

## Main results

* `Search.Pool.Step.accounts`, `Search.Pool.Reached.accounts` — what every step of a pool
  keeps, and so every run.
* `Search.Pool.outcome?_eq`, `Search.Pool.Reached.exists_outcome` — **a pool comes to the
  outcome of its tasks in order,** and to no other.
* `Search.scansTo_iff` — a search comes to one outcome, whatever its workers do.
* `Search.scanDirectory_outcome` — **which outcome this is,** and what does not matter for it.
-/

namespace ClassLineage
namespace Search

variable {tokens : Tokenizer}

/-! ### Taking results in order -/

section Verdict

variable {ε β : Type}

/-- What is known of the results of tasks, which are taken one after the other: nothing while
one is missing, unless one before it has failed. -/
def verdict? (table : PoolTable (Except ε β)) : List Nat → Option (Except ε (List β))
  | [] => some (.ok [])
  | i :: tasks =>
    match table.find? (·.1 = i) with
    | none => none
    | some (_, .error e) => some (.error e)
    | some (_, .ok b) => (verdict? table tasks).map (Except.map (b :: ·))

variable {table : PoolTable (Except ε β)} {task : Nat → Option (Except ε β)}
  {order tasks : List Nat} {r : Except ε (List β)}

/-- What is known stays known when more tasks are completed. -/
theorem verdict?_append (more : PoolTable (Except ε β)) (h : verdict? table tasks = some r) :
    verdict? (table ++ more) tasks = some r := by
  induction tasks generalizing r with
  | nil => exact h
  | cons i tasks ih =>
    unfold verdict? at h ⊢
    rw [List.find?_append]
    cases hfind : table.find? (·.1 = i) with
    | none => simp [hfind] at h
    | some e =>
      obtain ⟨j, given⟩ := e
      rw [hfind] at h
      cases given with
      | error e => exact h
      | ok b =>
        obtain ⟨rest, hrest, rfl⟩ := Option.map_eq_some_iff.mp h
        simp [ih hrest]

/-- What is known of the results is what doing the tasks in order gives. -/
theorem verdict?_complete (h : verdict? (complete task order) tasks = some r) :
    r = (tasks.filterMap task).mapM id := by
  induction tasks generalizing r with
  | nil => exact (Option.some.inj h).symm
  | cons i tasks ih =>
    unfold verdict? at h
    rw [find?_complete] at h
    split_ifs at h with hi
    · cases htask : task i with
      | none => simp [htask] at h
      | some given =>
        rw [List.filterMap_cons_some htask, List.mapM_cons]
        rw [htask] at h
        cases given with
        | error e => exact (Option.some.inj h).symm
        | ok b =>
          obtain ⟨rest, hrest, rfl⟩ := Option.map_eq_some_iff.mp h
          rw [← ih hrest]
          cases rest <;> rfl

/-- Once all tasks are completed, the outcome is known. -/
theorem isSome_verdict? (htask : ∀ i ∈ tasks, (task i).isSome) (hall : ∀ i ∈ tasks, i ∈ order) :
    (verdict? (complete task order) tasks).isSome := by
  induction tasks with
  | nil => rfl
  | cons i tasks ih =>
    have hrest := ih (fun j hj => htask j (List.mem_cons_of_mem _ hj))
      fun j hj => hall j (List.mem_cons_of_mem _ hj)
    obtain ⟨given, hgiven⟩ := Option.isSome_iff_exists.mp (htask i List.mem_cons_self)
    unfold verdict?
    rw [find?_complete, if_pos (hall i List.mem_cons_self), hgiven]
    cases given with
    | error e => rfl
    | ok b => simpa using hrest

end Verdict

/-! ### Pools -/

/-- A pool at work; tasks go by their numbers. -/
structure Pool where
  /-- The tasks that no worker has started. -/
  waiting : List Nat
  /-- The tasks that workers are at. -/
  running : List Nat
  /-- The tasks that workers have completed, in this order. -/
  completed : List Nat

namespace Pool

variable {ε β : Type}

/-- A pool to which a number of tasks has just been submitted. -/
def submitted (n : Nat) : Pool := ⟨List.range n, [], []⟩

/-- The outcome of the first `n` tasks, once it is known. -/
def outcome? (task : Nat → Option (Except ε β)) (n : Nat) (pool : Pool) :
    Option (Except ε (List β)) :=
  verdict? (complete task pool.completed) (List.range n)

/-- What may happen next in a pool of a number of workers to which `n` tasks were submitted. -/
inductive Step (workers : Int) (task : Nat → Option (Except ε β)) (n : Nat) : Pool → Pool → Prop
  /-- A worker that is free starts a task. -/
  | start {pool : Pool} {i : Nat} (hi : i ∈ pool.waiting)
      (hfree : (pool.running.length : Int) < workers) :
      Step workers task n pool ⟨pool.waiting.erase i, i :: pool.running, pool.completed⟩
  /-- A worker finishes its task. -/
  | finish {pool : Pool} {i : Nat} (hi : i ∈ pool.running) :
      Step workers task n pool ⟨pool.waiting, pool.running.erase i, pool.completed ++ [i]⟩
  /-- The outcome is a failure, and a task that still waits is dropped. -/
  | drop {pool : Pool} {i : Nat} {e : ε} (hi : i ∈ pool.waiting)
      (hfailed : pool.outcome? task n = some (.error e)) :
      Step workers task n pool ⟨pool.waiting.erase i, pool.running, pool.completed⟩

/-- A pool to which `n` tasks were submitted may come to be this one. -/
def Reached (workers : Int) (task : Nat → Option (Except ε β)) (n : Nat) (pool : Pool) : Prop :=
  Relation.ReflTransGen (Step workers task n) (submitted n) pool

/-- No task is lost: it waits, or a worker is at it, or it is completed, unless the outcome is
known to be a failure. -/
def Accounts (task : Nat → Option (Except ε β)) (n : Nat) (pool : Pool) : Prop :=
  (∃ e, pool.outcome? task n = some (.error e))
    ∨ ∀ i < n, i ∈ pool.waiting ∨ i ∈ pool.running ∨ i ∈ pool.completed

/-- The work that is left: a task is to be started and to be finished. -/
def work (pool : Pool) : Nat := 2 * pool.waiting.length + pool.running.length

section Run

variable {workers : Int} {task : Nat → Option (Except ε β)} {n : Nat} {pool next : Pool}

/-- **A pool comes to the outcome of its tasks in order only.** -/
theorem outcome?_eq {r : Except ε (List β)} (hr : pool.outcome? task n = some r) :
    r = ((List.range n).filterMap task).mapM id :=
  verdict?_complete hr

/-- A known outcome does not change. -/
theorem Step.outcome?_eq {r : Except ε (List β)} (h : Step workers task n pool next)
    (hr : pool.outcome? task n = some r) : next.outcome? task n = some r := by
  cases h with
  | start hi hfree => exact hr
  | finish hi =>
    unfold outcome? complete at hr ⊢
    rw [List.filterMap_append]
    exact verdict?_append _ hr
  | drop hi hfailed => exact hr

/-- No step loses a task. -/
theorem Step.accounts (h : Step workers task n pool next) (haccounts : pool.Accounts task n) :
    next.Accounts task n := by
  rcases haccounts with ⟨e, he⟩ | hall
  · exact Or.inl ⟨e, h.outcome?_eq he⟩
  · cases h with
    | @start i hi hfree =>
      refine Or.inr fun j hj => ?_
      by_cases hji : j = i
      · exact Or.inr (Or.inl (hji ▸ List.mem_cons_self))
      · rcases hall j hj with hj | hj | hj
        · exact Or.inl ((List.mem_erase_of_ne hji).mpr hj)
        · exact Or.inr (Or.inl (List.mem_cons_of_mem _ hj))
        · exact Or.inr (Or.inr hj)
    | @finish i hi =>
      refine Or.inr fun j hj => ?_
      by_cases hji : j = i
      · exact Or.inr (Or.inr (hji ▸ List.mem_append_right _ List.mem_cons_self))
      · rcases hall j hj with hj | hj | hj
        · exact Or.inl hj
        · exact Or.inr (Or.inl ((List.mem_erase_of_ne hji).mpr hj))
        · exact Or.inr (Or.inr (List.mem_append_left _ hj))
    | drop hi hfailed => exact Or.inl ⟨_, hfailed⟩

/-- Every step leaves less work. -/
theorem Step.work_lt (h : Step workers task n pool next) : next.work < pool.work := by
  cases h with
  | start hi hfree =>
    have hpos := List.length_pos_of_mem hi
    simp only [work, List.length_erase_of_mem hi, List.length_cons]
    omega
  | finish hi =>
    have hpos := List.length_pos_of_mem hi
    simp only [work, List.length_erase_of_mem hi]
    omega
  | drop hi hfailed =>
    have hpos := List.length_pos_of_mem hi
    simp only [work, List.length_erase_of_mem hi]
    omega

namespace Reached

/-- **No run loses a task.** -/
theorem accounts (h : Reached workers task n pool) : pool.Accounts task n := by
  induction h with
  | refl => exact Or.inr fun i hi => Or.inl (List.mem_range.mpr hi)
  | tail _ hstep ih => exact hstep.accounts ih

/-- A pool in which nothing can happen any more has come to an outcome. -/
theorem isSome_outcome? (h : Reached workers task n pool) (hworkers : 0 < workers)
    (htask : ∀ i < n, (task i).isSome) (hend : ∀ next, ¬ Step workers task n pool next) :
    (pool.outcome? task n).isSome := by
  have hrunning : pool.running = [] :=
    List.eq_nil_iff_forall_not_mem.mpr fun i hi => hend _ (.finish hi)
  have hwaiting : pool.waiting = [] := by
    refine List.eq_nil_iff_forall_not_mem.mpr fun i hi => hend _ (.start hi ?_)
    rw [hrunning]
    exact hworkers
  rcases h.accounts with ⟨e, he⟩ | hall
  · rw [he]
    rfl
  · refine isSome_verdict? (fun i hi => htask i (List.mem_range.mp hi)) fun i hi => ?_
    simpa [hrunning, hwaiting] using hall i (List.mem_range.mp hi)

/-- **Every run of a pool can be gone on with until the outcome is known.** -/
theorem exists_outcome (h : Reached workers task n pool) (hworkers : 0 < workers)
    (htask : ∀ i < n, (task i).isSome) :
    ∃ last, Relation.ReflTransGen (Step workers task n) pool last
      ∧ (last.outcome? task n).isSome := by
  -- the work left bounds the number of steps
  induction hwork : pool.work using Nat.strongRecOn generalizing pool with
  | _ w ih =>
    by_cases hend : ∃ next, Step workers task n pool next
    · obtain ⟨next, hnext⟩ := hend
      obtain ⟨last, hlast, hsome⟩ := ih next.work (hwork ▸ hnext.work_lt) (h.tail hnext) rfl
      exact ⟨last, hlast.head hnext, hsome⟩
    · exact ⟨pool, .refl, h.isSome_outcome? hworkers htask fun next hnext => hend ⟨next, hnext⟩⟩

end Reached
end Run
end Pool

/-! ### Searches -/

/-- The files that count are the tasks of a pool. -/
def taskOf (s : Search tokens) (paths : List String) (i : Nat) :
    Option (Except AccessError (List Declaration)) :=
  paths[i]?.map s.scanFile

/-- An outcome that the search of a directory may come to: that of the listing if this fails,
else that of scanning one file after the other or, if they are read several at a time, that
which the pool comes to. -/
inductive ScansTo (s : Search tokens) (directory : Path) :
    Except AccessError (List Declaration) → Prop
  /-- The files are not listed. -/
  | unlisted {e : AccessError} (hlist : s.phpFiles directory = .error e) :
      ScansTo s directory (.error e)
  /-- The files are read one after the other. -/
  | inOrder {paths : List String} (hlist : s.phpFiles directory = .ok paths)
      (hpool : s.isPooled paths = false) :
      ScansTo s directory ((paths.mapM s.scanFile).map List.flatten)
  /-- The files are read several at a time. -/
  | pooled {paths : List String} {pool : Pool} {r : Except AccessError (List (List Declaration))}
      (hlist : s.phpFiles directory = .ok paths) (hpool : s.isPooled paths = true)
      (hreached : pool.Reached s.config.workers (s.taskOf paths) paths.length)
      (hr : pool.outcome? (s.taskOf paths) paths.length = some r) :
      ScansTo s directory (r.map List.flatten)

section Runs

variable {s : Search tokens} {directory : Path} {paths : List String} {pool : Pool}
  {outcome : Except AccessError (List Declaration)}

/-- Whatever is known of all files is what scanning one after the other gives. -/
theorem outcome?_taskOf {r : Except AccessError (List (List Declaration))}
    (h : pool.outcome? (s.taskOf paths) paths.length = some r) : r = paths.mapM s.scanFile := by
  have htasks := Pool.outcome?_eq h
  unfold taskOf at htasks
  rw [filterMap_range_map, List.mapM_map] at htasks
  exact htasks

/-- A pool of files can be run on until what scanning them one after the other gives is known. -/
theorem exists_outcome?_taskOf (hpool : s.isPooled paths = true)
    (hreached : pool.Reached s.config.workers (s.taskOf paths) paths.length) :
    ∃ last, Relation.ReflTransGen
        (Pool.Step s.config.workers (s.taskOf paths) paths.length) pool last
      ∧ last.outcome? (s.taskOf paths) paths.length = some (paths.mapM s.scanFile) := by
  have hworkers : 0 < s.config.workers := by
    unfold isPooled at hpool
    simp only [Bool.and_eq_true, decide_eq_true_eq] at hpool
    omega
  obtain ⟨last, hlast, hsome⟩ := hreached.exists_outcome hworkers fun i hi => by
    simp [taskOf, hi]
  obtain ⟨r, hr⟩ := Option.isSome_iff_exists.mp hsome
  exact ⟨last, hlast, outcome?_taskOf hr ▸ hr⟩

/-- **A search comes to one outcome,** whatever its workers do. -/
theorem scansTo_iff : s.ScansTo directory outcome ↔ outcome = s.scanDirectory directory := by
  constructor
  · intro h
    cases h with
    | unlisted hlist => rw [scanDirectory_of_phpFiles_error hlist]
    | inOrder hlist hpool => rw [scanDirectory_of_phpFiles hlist]
    | pooled hlist hpool hreached hr => rw [scanDirectory_of_phpFiles hlist, outcome?_taskOf hr]
  · rintro rfl
    cases hlist : s.phpFiles directory with
    | error e =>
      rw [scanDirectory_of_phpFiles_error hlist]
      exact .unlisted hlist
    | ok paths =>
      rw [scanDirectory_of_phpFiles hlist]
      cases hpool : s.isPooled paths with
      | false => exact .inOrder hlist hpool
      | true =>
        obtain ⟨last, hlast, hr⟩ := exists_outcome?_taskOf hpool .refl
        exact .pooled hlist hpool hlast hr

end Runs

/-! ### The outcome of a search -/

/-- The file has gone since it was listed. -/
def hasGone (s : Search tokens) (path : String) : Bool :=
  match s.files.readText path with
  | .error (.file e) => e.isVanished
  | _ => false

/-- What a file ends a search with, if it cannot be read and has not gone. -/
def failure? (s : Search tokens) (path : String) : Option AccessError :=
  match s.files.readText path with
  | .ok _ => none
  | .error e => if s.hasGone path then none else some e

/-- What a file adds to a search: what it declares, if it can be read. -/
def declarationsOf (s : Search tokens) (path : String) : List Declaration :=
  match s.files.readText path with
  | .ok source => scanSource tokens source path
  | .error _ => []

/-- The outcome for a list of files: the first failure if there is one, else what the files
declare, one after the other. -/
def outcomeOf (s : Search tokens) (paths : List String) : Except AccessError (List Declaration) :=
  match paths.findSome? s.failure? with
  | some e => .error e
  | none => .ok (paths.flatMap s.declarationsOf)

/-- The search in whose listings files that have gone are left out. -/
def withoutGone (s : Search tokens) : Search tokens where
  files :=
    { s.files with
      listFiles := fun directory =>
        (s.files.listFiles directory).map (·.filter fun path => !s.hasGone path) }
  config := s.config

section Outcome

variable {s : Search tokens} {directory : Path} {path : String} {paths listing : List String}

/-- A file ends a search or adds to it. -/
theorem scanFile_eq (s : Search tokens) (path : String) :
    s.scanFile path
      = match s.failure? path with
        | some e => .error e
        | none => .ok (s.declarationsOf path) := by
  unfold scanFile failure? declarationsOf hasGone
  cases s.files.readText path with
  | ok source => rfl
  | error e =>
    cases e with
    | file e => cases h : e.isVanished <;> simp [h]
    | system e => rfl

/-- A file that has gone neither ends a search nor adds to it. -/
theorem failure?_of_hasGone (h : s.hasGone path = true) :
    s.failure? path = none ∧ s.declarationsOf path = [] := by
  unfold failure? declarationsOf
  cases hread : s.files.readText path with
  | ok source => simp [hasGone, hread] at h
  | error e => exact ⟨if_pos h, rfl⟩

/-- Scanning one file after the other comes to the outcome for them. -/
theorem mapM_scanFile (s : Search tokens) (paths : List String) :
    (paths.mapM s.scanFile).map List.flatten = s.outcomeOf paths := by
  unfold outcomeOf
  induction paths with
  | nil => rfl
  | cons path paths ih =>
    rw [List.mapM_cons, scanFile_eq, List.findSome?_cons]
    cases hfailure : s.failure? path with
    | some e => rfl
    | none =>
      show Except.map List.flatten
        (paths.mapM s.scanFile >>= fun rest => pure (s.declarationsOf path :: rest)) = _
      cases hrest : paths.mapM s.scanFile with
      | error e =>
        rw [hrest] at ih
        cases hfirst : paths.findSome? s.failure? with
        | none => simp [hfirst, Except.map] at ih
        | some e' =>
          rw [hfirst] at ih
          exact ih
      | ok rest =>
        rw [hrest] at ih
        cases hfirst : paths.findSome? s.failure? with
        | some e' => simp [hfirst, Except.map] at ih
        | none =>
          rw [hfirst] at ih
          rw [List.flatMap_cons, ← Except.ok.inj ih]
          rfl

/-- Files that have gone do not matter for the outcome. -/
theorem outcomeOf_filter (s : Search tokens) (paths : List String) :
    s.outcomeOf (paths.filter fun path => !s.hasGone path) = s.outcomeOf paths := by
  have hfirst : (paths.filter fun path => !s.hasGone path).findSome? s.failure?
      = paths.findSome? s.failure? := by
    induction paths with
    | nil => rfl
    | cons path paths ih =>
      cases hgone : s.hasGone path with
      | true => simp [hgone, ih, (failure?_of_hasGone hgone).1]
      | false => simp [hgone, ih, List.findSome?_cons]
  have hadded : (paths.filter fun path => !s.hasGone path).flatMap s.declarationsOf
      = paths.flatMap s.declarationsOf := by
    clear hfirst
    induction paths with
    | nil => rfl
    | cons path paths ih =>
      cases hgone : s.hasGone path with
      | true => simp [hgone, ih, (failure?_of_hasGone hgone).2]
      | false => simp [hgone, ih]
  unfold outcomeOf
  rw [hfirst, hadded]

theorem scanDirectory_of_listFiles (h : s.files.listFiles directory = .ok listing) :
    s.scanDirectory directory
      = s.outcomeOf (listing.filter (keeps directory s.config.excludes s.config.extensions)) := by
  rw [scanDirectory_of_phpFiles (phpFiles_of_listFiles h), mapM_scanFile]

/-- **The outcome of a search.**  If the files are listed, it is the failure of the first file
that counts and has one, in the order of the listing, and else what these files declare, in
this order.  No run of a pool comes to anything else, and each can be run on until it comes to
it; nor does it matter in which order all tasks are completed, how many workers there are, or
whether files that have gone are listed. -/
theorem scanDirectory_outcome (s : Search tokens) (directory : Path) {listing : List String}
    (hlist : s.files.listFiles directory = .ok listing) :
    s.scanDirectory directory
        = s.outcomeOf (listing.filter (keeps directory s.config.excludes s.config.extensions))
    ∧ (∀ outcome, s.ScansTo directory outcome ↔ outcome = s.scanDirectory directory)
    ∧ (∀ (paths : List String) (pool : Pool), s.phpFiles directory = .ok paths →
        s.isPooled paths = true →
        pool.Reached s.config.workers (s.taskOf paths) paths.length →
        ∃ last, Relation.ReflTransGen
            (Pool.Step s.config.workers (s.taskOf paths) paths.length) pool last
          ∧ last.outcome? (s.taskOf paths) paths.length = some (paths.mapM s.scanFile))
    ∧ (∀ schedule : Nat → List Nat, (∀ n, ∀ i < n, i ∈ schedule n) →
        s.scanDirectoryBy schedule directory = s.scanDirectory directory)
    ∧ (∀ workers : Int,
        scanDirectory (⟨s.files, { s.config with workers := workers }⟩ : Search tokens) directory
          = s.scanDirectory directory)
    ∧ s.withoutGone.scanDirectory directory = s.scanDirectory directory := by
  refine ⟨scanDirectory_of_listFiles hlist, fun outcome => scansTo_iff, ?_, ?_, ?_, ?_⟩
  · intro paths pool _ hpool hreached
    exact exists_outcome?_taskOf hpool hreached
  · intro schedule hschedule
    rw [scanDirectoryBy_eq hschedule, scanDirectory,
      scanDirectoryBy_eq fun _ _ => List.mem_range.mpr]
  · intro workers
    rw [scanDirectory_of_listFiles hlist]
    exact scanDirectory_of_listFiles hlist
  · have hgone : s.withoutGone.files.listFiles directory
        = .ok (listing.filter fun path => !s.hasGone path) := by
      simp only [withoutGone, hlist]
      rfl
    rw [scanDirectory_of_listFiles hgone, scanDirectory_of_listFiles hlist,
      ← outcomeOf_filter s (listing.filter _), List.filter_comm]
    rfl

end Outcome

/-! ### A search among files of all kinds -/

/-- Four listed files: one that can be read, one that has gone, one that may not be read, and
one that cannot be read. -/
def mixedFiles : Filesystem where
  listFiles _ := .ok ["Shop.php", "Gone.php", "Locked.php", "Broken.php"]
  readText := MemoryFiles.readText [("Shop.php", .ok "<?php class Shop \x7b\x7d"),
    ("Locked.php", .error (.permissionDenied "Locked.php" "read")),
    ("Broken.php", .error (.unreadableFile "Broken.php"))]

/-- A search among them by three workers. -/
def mixedSearch : Search := ⟨mixedFiles, { Config.standard with workers := 3 }⟩

/-- Even if the last file is tried first, the outcome is the failure of the third. -/
theorem scanDirectory_outcome_mixed :
    mixedSearch.files.listFiles ⟨.relative, []⟩
        = .ok ["Shop.php", "Gone.php", "Locked.php", "Broken.php"]
    ∧ mixedSearch.scanDirectory ⟨.relative, []⟩
        = .error (.file (.permissionDenied "Locked.php" "read"))
    ∧ (∀ outcome, mixedSearch.ScansTo ⟨.relative, []⟩ outcome
        ↔ outcome = .error (.file (.permissionDenied "Locked.php" "read")))
    ∧ (∀ n, ∀ i < n, i ∈ (List.range n).reverse)
    ∧ mixedSearch.scanDirectoryBy (fun n => (List.range n).reverse) ⟨.relative, []⟩
        = .error (.file (.permissionDenied "Locked.php" "read")) := by
  have hlist : mixedSearch.files.listFiles ⟨.relative, []⟩
      = .ok ["Shop.php", "Gone.php", "Locked.php", "Broken.php"] := rfl
  obtain ⟨hscan, hscans, -, hschedule, -, -⟩ := scanDirectory_outcome mixedSearch _ hlist
  have hkept : ["Shop.php", "Gone.php", "Locked.php", "Broken.php"].filter
      (keeps ⟨.relative, []⟩ mixedSearch.config.excludes mixedSearch.config.extensions)
      = ["Shop.php", "Gone.php", "Locked.php", "Broken.php"] := by decide +kernel
  have hreverse : ∀ n, ∀ i < n, i ∈ (List.range n).reverse := fun n i hi =>
    List.mem_reverse.mpr (List.mem_range.mpr hi)
  have houtcome : mixedSearch.scanDirectory ⟨.relative, []⟩
      = .error (.file (.permissionDenied "Locked.php" "read")) := by
    rw [hscan, hkept]
    rfl
  exact ⟨hlist, houtcome, fun outcome => houtcome ▸ hscans outcome, hreverse,
    houtcome ▸ hschedule _ hreverse⟩

end Search
end ClassLineage
