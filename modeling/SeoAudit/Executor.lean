import SeoAudit.Pool

/-! A pool of workers at its queue. Tasks are handed in one after the other, each for a
ticket; a task in the queue begins while fewer tasks than workers are under way, and any that
is under way may be the next to finish. Results are kept in the order in which they come, and
asked for by ticket. Each of them lies under the ticket of its task (`Reaches.books`), so what
the tickets give is what `Pool` gives, in which a task never leaves its place. -/
namespace SeoAudit

/-- Tasks to come, the number of tickets issued, tasks that wait or are under way with their
tickets, and results with their tickets, the latest one last. -/
structure Executor (α β : Type) where
  coming : List α
  issued : Nat := 0
  queued : List (α × Nat) := []
  running : List (α × Nat) := []
  finished : List (β × Nat) := []

namespace Executor
variable {α β ε : Type}

def ofTasks (tasks : List α) : Executor α β := { coming := tasks }

def isOver (e : Executor α β) : Prop := e.coming = [] ∧ e.queued = [] ∧ e.running = []

def result? (e : Executor α β) (ticket : Nat) : Option β :=
  (e.finished.find? (·.2 = ticket)).map (·.1)

def results? (e : Executor α β) : List (Option β) := (List.range e.issued).map e.result?

inductive Step (workers : Nat) (work : α → β) : Executor α β → Executor α β → Prop
  | submit (e : Executor α β) (task : α) (rest : List α) (next : e.coming = task :: rest) :
      Step workers work e
        { e with coming := rest, issued := e.issued + 1, queued := e.queued ++ [(task, e.issued)] }
  | start (e : Executor α β) (before after : List (α × Nat)) (task : α) (ticket : Nat)
      (waits : e.queued = before ++ (task, ticket) :: after) (free : e.running.length < workers) :
      Step workers work e
        { e with queued := before ++ after, running := e.running ++ [(task, ticket)] }
  | finish (e : Executor α β) (before after : List (α × Nat)) (task : α) (ticket : Nat)
      (runs : e.running = before ++ (task, ticket) :: after) :
      Step workers work e
        { e with running := before ++ after, finished := e.finished ++ [(work task, ticket)] }

abbrev Reaches (workers : Nat) (work : α → β) : Executor α β → Executor α β → Prop :=
  Relation.ReflTransGen (Step workers work)

/-- What tasks that may fail come to with some workers, as `Pool.Gathers` has it, where the
results are read off the tickets when all tasks have been handed in. -/
inductive Gathers (workers : Int) (work : α → Except ε β) (tasks : List α) :
    Except ε (List β) → Prop
  | inTurn (few : workers ≤ 1 ∨ tasks.length ≤ 1) :
    Gathers workers work tasks (tasks.mapM work)
  | pooled {e : Executor α (Except ε β)} {results : List (Except ε β)}
      (many : 1 < workers ∧ 1 < tasks.length)
      (reached : Reaches workers.toNat work (ofTasks tasks) e) (submitted : e.coming = [])
      (complete : e.results? = results.map some) : Gathers workers work tasks (results.mapM id)

section Run
variable {workers : Nat} {work : α → β} {e f : Executor α β} {tasks : List α}

def ledger (work : α → β) (e : Executor α β) : List (β × Nat) :=
  (e.queued ++ e.running).map (Prod.map work id) ++ e.finished

/-- The tickets of an executor are those of the tasks that have been handed in, and each is
the place of its task. -/
def Books (work : α → β) (tasks : List α) (e : Executor α β) : Prop :=
  ∃ handed, tasks = handed ++ e.coming ∧ e.issued = handed.length ∧
    (ledger work e).Perm (handed.map work).zipIdx

theorem books_ofTasks (work : α → β) (tasks : List α) : Books work tasks (ofTasks tasks) :=
  ⟨[], rfl, rfl, .refl _⟩

theorem Step.books (step : Step workers work e f) (books : Books work tasks e) :
    Books work tasks f := by
  obtain ⟨handed, split, issued, perm⟩ := books
  -- In each step one entry moves over the part of the ledger behind it.
  have moved (entry : β × Nat) (front back : List (β × Nat)) :
      (front ++ entry :: back).Perm (front ++ (back ++ [entry])) :=
    (List.perm_append_singleton entry back).symm.append_left front
  cases step with
  | submit task rest next =>
    refine ⟨handed ++ [task], by simp [split, next], by simp [issued], ?_⟩
    have grown := perm.append_right [(work task, e.issued)]
    have entered := moved (work task, e.issued) (e.queued.map (Prod.map work id))
      (e.running.map (Prod.map work id) ++ e.finished)
    simp only [ledger, issued, List.map_append, List.map_cons, List.map_nil, Prod.map_apply,
      id_eq, List.append_assoc, List.singleton_append, List.zipIdx_append, List.length_map,
      List.zipIdx_singleton, Nat.zero_add] at grown entered ⊢
    exact entered.trans grown
  | start before after task ticket waits free =>
    refine ⟨handed, split, issued, .trans ?_ perm⟩
    have begun := moved (work task, ticket) (before.map (Prod.map work id))
      ((after ++ e.running).map (Prod.map work id))
    simp only [ledger, waits, List.map_append, List.map_cons, List.map_nil, Prod.map_apply,
      id_eq, List.append_assoc, List.cons_append] at begun ⊢
    simpa using begun.symm.append_right e.finished
  | finish before after task ticket runs =>
    refine ⟨handed, split, issued, .trans ?_ perm⟩
    have ended := moved (work task, ticket) ((e.queued ++ before).map (Prod.map work id))
      (after.map (Prod.map work id) ++ e.finished)
    simpa [ledger, runs] using ended.symm

theorem Reaches.books (reached : Reaches workers work (ofTasks tasks) e) : Books work tasks e := by
  induction reached with
  | refl => exact books_ofTasks work tasks
  | tail _ step ih => exact step.books ih

theorem Books.get (books : Books work tasks e) {ticket : Nat} {result : β}
    (there : e.result? ticket = some result) : (tasks.map work)[ticket]? = some result := by
  obtain ⟨handed, split, -, perm⟩ := books
  obtain ⟨entry, found, rfl⟩ := Option.map_eq_some_iff.mp there
  have same : entry.2 = ticket := by simpa using List.find?_some found
  have listed : entry ∈ ledger work e := List.mem_append_right _ (List.mem_of_find?_eq_some found)
  have numbered := List.mem_zipIdx_iff_getElem?.mp (perm.mem_iff.mp listed)
  rw [split, List.map_append, ← same]
  exact List.getElem?_append_left (List.getElem?_eq_some_iff.mp numbered).1 ▸ numbered

theorem Books.length (books : Books work tasks e) (submitted : e.coming = []) :
    e.issued = tasks.length := by
  obtain ⟨handed, split, issued, -⟩ := books
  rw [issued, split, submitted, List.append_nil]

/-- Whatever the schedule, the tickets give the result of each task in its place. -/
theorem Reaches.results {results : List β} (reached : Reaches workers work (ofTasks tasks) e)
    (submitted : e.coming = []) (complete : e.results? = results.map some) :
    results = tasks.map work := by
  have books := reached.books
  have length : results.length = tasks.length := by
    have counted := congrArg List.length complete
    simpa [results?, books.length submitted] using counted.symm
  refine List.ext_getElem (by simpa using length) fun ticket inside _ => ?_
  have there : e.result? ticket = some results[ticket] := by
    have entry := congrArg (·[ticket]?) complete
    simpa [results?, books.length submitted, ← length, inside] using entry
  have given := books.get there
  rw [List.getElem?_eq_getElem (by simpa [← length] using inside)] at given
  exact (Option.some.inj given).symm

theorem Books.results_of_isOver (books : Books work tasks e) (ended : e.isOver) :
    e.results? = (tasks.map work).map some := by
  obtain ⟨submitted, queue, workers⟩ := ended
  have length := books.length submitted
  refine List.ext_getElem (by simp [results?, length]) fun ticket _ inside => ?_
  obtain ⟨handed, split, -, perm⟩ := id books
  rw [submitted, List.append_nil] at split
  rw [List.length_map] at inside
  have numbered : ((tasks.map work)[ticket], ticket) ∈ (handed.map work).zipIdx := by
    rw [List.mem_zipIdx_iff_getElem?, ← split]
    exact List.getElem?_eq_getElem inside
  have listed := perm.mem_iff.mpr numbered
  simp only [ledger, queue, workers, List.append_nil, List.map_nil, List.nil_append] at listed
  have found : (e.result? ticket).isSome := by
    rw [result?, Option.isSome_map, List.find?_isSome]
    exact ⟨_, listed, decide_eq_true rfl⟩
  obtain ⟨result, there⟩ := Option.isSome_iff_exists.mp found
  have given := books.get there
  rw [List.getElem?_eq_getElem (by simpa using inside)] at given
  simpa [results?, there] using given.symm

def left (e : Executor α β) : Nat :=
  3 * e.coming.length + 2 * e.queued.length + e.running.length

theorem Step.left (step : Step workers work e f) : f.left + 1 = e.left := by
  cases step with
  | submit task rest next =>
    simp only [Executor.left, next, List.length_append, List.length_cons, List.length_nil]
    omega
  | start before after task ticket waits free =>
    simp only [Executor.left, waits, List.length_append, List.length_cons, List.length_nil]
    omega
  | finish before after task ticket runs =>
    simp only [Executor.left, runs, List.length_append, List.length_cons]
    omega

theorem exists_step (free : 0 < workers) (work : α → β) (unfinished : ¬ e.isOver) :
    ∃ f, Step workers work e f := by
  cases runs : e.running with
  | cons entry rest => exact ⟨_, .finish e [] rest entry.1 entry.2 runs⟩
  | nil =>
    cases waits : e.queued with
    | cons entry rest =>
      exact ⟨_, .start e [] rest entry.1 entry.2 waits (by simpa [runs] using free)⟩
    | nil =>
      cases next : e.coming with
      | cons task rest => exact ⟨_, .submit e task rest next⟩
      | nil => exact absurd ⟨next, waits, runs⟩ unfinished

theorem exists_reaches_over (free : 0 < workers) (work : α → β) (e : Executor α β) :
    ∃ f, Reaches workers work e f ∧ f.isOver := by
  induction steps : e.left generalizing e with
  | zero =>
    unfold Executor.left at steps
    exact ⟨e, .refl, List.length_eq_zero_iff.mp (by omega), List.length_eq_zero_iff.mp (by omega),
      List.length_eq_zero_iff.mp (by omega)⟩
  | succ n ih =>
    by_cases ended : e.isOver
    · exact ⟨e, .refl, ended⟩
    · obtain ⟨next, step⟩ := exists_step free work ended
      have fewer := step.left
      obtain ⟨last, reached, ended⟩ := ih next (by omega)
      exact ⟨last, .head step reached, ended⟩

theorem Step.running_le (step : Step workers work e f) (few : e.running.length ≤ workers) :
    f.running.length ≤ workers := by
  cases step with
  | submit => exact few
  | start before after task ticket waits free =>
    simpa using Nat.succ_le_of_lt free
  | finish before after task ticket runs =>
    simp only [runs, List.length_append, List.length_cons] at few ⊢
    omega

theorem Reaches.running_le (reached : Reaches workers work (ofTasks tasks) e) :
    e.running.length ≤ workers := by
  induction reached with
  | refl => exact Nat.zero_le workers
  | tail _ step ih => exact step.running_le ih

end Run

/-- The number of workers and the schedule do not matter, nor does the order of the results. -/
theorem gathers_iff {workers : Int} {work : α → Except ε β} {tasks : List α}
    {outcome : Except ε (List β)} :
    Gathers workers work tasks outcome ↔ outcome = tasks.mapM work := by
  constructor
  · intro gathered
    cases gathered with
    | inTurn few => rfl
    | pooled many reached submitted complete =>
      rw [reached.results submitted complete, List.mapM_map]
      rfl
  · rintro rfl
    by_cases few : workers ≤ 1 ∨ tasks.length ≤ 1
    · exact .inTurn few
    · have free : 0 < workers.toNat := by omega
      obtain ⟨last, reached, ended⟩ := exists_reaches_over free work (ofTasks tasks)
      have gathered := Gathers.pooled (by omega) reached ended.1
        (reached.books.results_of_isOver ended)
      rwa [List.mapM_map] at gathered

theorem gathers_iff_pool {workers : Int} {work : α → Except ε β} {tasks : List α}
    {outcome : Except ε (List β)} :
    Gathers workers work tasks outcome ↔ Pool.Gathers workers work tasks outcome := by
  rw [gathers_iff, Pool.gathers_iff]

end Executor
end SeoAudit
