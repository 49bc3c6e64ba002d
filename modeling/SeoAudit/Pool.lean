import Mathlib.Logic.Relation

/-! A pool of workers. Tasks are handed in together. A waiting one begins while fewer
tasks than workers are under way, and any that is under way may be the next to finish.
The results are taken in the order in which the tasks were handed in, so the schedule
leaves no trace in them. -/
namespace SeoAudit

inductive Stage (α β : Type) where
  | waiting (task : α)
  | running (task : α)
  | finished (result : β)

namespace Stage
variable {α β : Type}

def isRunning : Stage α β → Bool
  | running _ => true
  | waiting _ | finished _ => false

def result? : Stage α β → Option β
  | finished result => some result
  | waiting _ | running _ => none

def outcome (work : α → β) : Stage α β → β
  | waiting task | running task => work task
  | finished result => result

end Stage

abbrev Pool (α β : Type) := List (Stage α β)

namespace Pool
variable {α β ε : Type}

def submitted (tasks : List α) : Pool α β := tasks.map .waiting

def busy (p : Pool α β) : Nat := p.countP Stage.isRunning

def results? (p : Pool α β) : Option (List β) := p.mapM Stage.result?

inductive Step (workers : Nat) (work : α → β) : Pool α β → Pool α β → Prop
  | start (before after : Pool α β) (task : α)
      (free : busy (before ++ .waiting task :: after) < workers) :
      Step workers work (before ++ .waiting task :: after) (before ++ .running task :: after)
  | finish (before after : Pool α β) (task : α) :
      Step workers work (before ++ .running task :: after)
        (before ++ .finished (work task) :: after)

abbrev Reaches (workers : Nat) (work : α → β) : Pool α β → Pool α β → Prop :=
  Relation.ReflTransGen (Step workers work)

/-- What tasks that may fail come to with some workers: they are done in turn by one
worker and when there is at most one of them, and else in a pool. The first fault in
the order of the tasks counts. -/
inductive Gathers (workers : Int) (work : α → Except ε β) (tasks : List α) :
    Except ε (List β) → Prop
  | inTurn (few : workers ≤ 1 ∨ tasks.length ≤ 1) :
    Gathers workers work tasks (tasks.mapM work)
  | pooled {pool : Pool α (Except ε β)} {results : List (Except ε β)}
      (many : 1 < workers ∧ 1 < tasks.length)
      (reached : Reaches workers.toNat work (submitted tasks) pool)
      (complete : results? pool = some results) : Gathers workers work tasks (results.mapM id)

section Run
variable {workers : Nat} {work : α → β} {p q : Pool α β}

theorem Step.outcomes (step : Step workers work p q) :
    q.map (Stage.outcome work) = p.map (Stage.outcome work) := by
  cases step with
  | start before after task free => simp [Stage.outcome]
  | finish before after task => simp [Stage.outcome]

theorem Reaches.outcomes (reached : Reaches workers work p q) :
    q.map (Stage.outcome work) = p.map (Stage.outcome work) := by
  induction reached with
  | refl => rfl
  | tail _ step ih => rw [step.outcomes, ih]

theorem results?_eq_some {results : List β} (complete : results? p = some results) :
    results = p.map (Stage.outcome work) := by
  induction p generalizing results with
  | nil =>
    cases complete
    rfl
  | cons stage rest ih =>
    simp only [results?, List.mapM_cons, Option.bind_eq_bind, Option.bind_eq_some_iff] at complete
    obtain ⟨result, head, others, tail, same⟩ := complete
    cases same
    cases stage with
    | waiting task => cases head
    | running task => cases head
    | finished value =>
      cases head
      rw [List.map_cons, ← ih tail]
      rfl

/-- Whatever the schedule, a complete pool holds the result of each task in its place. -/
theorem Reaches.results {tasks : List α} {results : List β}
    (reached : Reaches workers work (submitted tasks) p) (complete : results? p = some results) :
    results = tasks.map work := by
  rw [results?_eq_some complete, reached.outcomes, submitted, List.map_map]
  rfl

theorem busy_finished (results : List β) (tasks : List α) :
    busy (results.map .finished ++ submitted tasks : Pool α β) = 0 := by
  simp [busy, submitted, Stage.isRunning]

theorem reaches_in_turn (free : 0 < workers) (done : List β) (tasks : List α) :
    Reaches workers work (done.map .finished ++ submitted tasks)
      ((done ++ tasks.map work).map .finished) := by
  induction tasks generalizing done with
  | nil =>
    rw [List.map_nil, List.append_nil, submitted, List.map_nil, List.append_nil]
  | cons task tasks ih =>
    have idle :
        busy (done.map .finished ++ .waiting task :: submitted tasks : Pool α β) < workers :=
      busy_finished done (task :: tasks) ▸ free
    have start : Step workers work _ _ := .start _ _ task idle
    have finish : Step workers work _ _ := .finish (done.map .finished) (submitted tasks) task
    have rest := ih (done ++ [work task])
    simp only [List.map_append, List.map_cons, List.map_nil, List.append_assoc,
      List.singleton_append] at rest
    simp only [List.map_append, List.map_cons, submitted]
    exact .head start (.head finish rest)

theorem results?_finished (results : List β) :
    results? (results.map .finished : Pool α β) = some results := by
  induction results with
  | nil => rfl
  | cons result results ih =>
    simp only [results?] at ih
    simp [results?, Stage.result?, ih]

end Run

/-- The number of workers and the schedule do not matter. -/
theorem gathers_iff {workers : Int} {work : α → Except ε β} {tasks : List α}
    {outcome : Except ε (List β)} :
    Gathers workers work tasks outcome ↔ outcome = tasks.mapM work := by
  constructor
  · intro gathered
    cases gathered with
    | inTurn few => rfl
    | pooled many reached complete =>
      rw [reached.results complete, List.mapM_map]
      rfl
  · rintro rfl
    by_cases few : workers ≤ 1 ∨ tasks.length ≤ 1
    · exact .inTurn few
    · -- Some schedule has to be shown, and any will do.
      have reached : Reaches workers.toNat work _ _ := reaches_in_turn (by omega) [] tasks
      have gathered := Gathers.pooled (by omega) reached (results?_finished _)
      rwa [List.nil_append, List.mapM_map] at gathered

end Pool
end SeoAudit
