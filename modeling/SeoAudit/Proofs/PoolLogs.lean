import Mathlib.Data.List.Perm.Subperm
import SeoAudit.Pool
import SeoAudit.Proofs.Lists

/-! The tasks that a pool begins, in the order in which they begin. A task that has begun
no longer waits, so none begins twice, and in a complete pool every task has begun. -/
namespace SeoAudit
namespace Pool
variable {α β ε : Type}

inductive Begins (workers : Nat) (work : α → β) (p : Pool α β) :
    List α → Pool α β → Prop
  | refl : Begins workers work p [] p
  | start {begun : List α} (before after : Pool α β) (task : α)
      (earlier : Begins workers work p begun (before ++ .waiting task :: after))
      (free : busy (before ++ .waiting task :: after) < workers) :
      Begins workers work p (begun ++ [task]) (before ++ .running task :: after)
  | finish {begun : List α} (before after : Pool α β) (task : α)
      (earlier : Begins workers work p begun (before ++ .running task :: after)) :
      Begins workers work p begun (before ++ .finished (work task) :: after)

def waiting (p : Pool α β) : List α :=
  p.filterMap fun
    | .waiting task => some task
    | .running _ | .finished _ => none

def begunInTurn (work : α → Except ε β) : List α → List α
  | [] => []
  | task :: tasks =>
    task :: match work task with
      | .error _ => []
      | .ok _ => begunInTurn work tasks

/-- What tasks that may fail come to, as `Gathers` has it, with the tasks that begin. -/
inductive Executes (workers : Int) (work : α → Except ε β) (tasks : List α) :
    List α → Except ε (List β) → Prop
  | inTurn (few : workers ≤ 1 ∨ tasks.length ≤ 1) :
      Executes workers work tasks (begunInTurn work tasks) (tasks.mapM work)
  | pooled {begun : List α} {pool : Pool α (Except ε β)} {results : List (Except ε β)}
      (many : 1 < workers ∧ 1 < tasks.length)
      (begins : Begins workers.toNat work (submitted tasks) begun pool)
      (complete : results? pool = some results) :
      Executes workers work tasks begun (results.mapM id)

section Begins
variable {workers : Nat} {work : α → β} {p q : Pool α β} {begun : List α}

theorem Begins.reaches (begins : Begins workers work p begun q) : Reaches workers work p q := by
  induction begins with
  | refl => exact .refl
  | start before after task _ free ih => exact .tail ih (.start before after task free)
  | finish before after task _ ih => exact .tail ih (.finish before after task)

theorem Begins.perm (begins : Begins workers work p begun q) :
    (begun ++ waiting q).Perm (waiting p) := by
  induction begins with
  | refl => exact .refl _
  | start before after task _ _ ih =>
    refine .trans ?_ ih
    simp only [waiting, List.filterMap_append, List.filterMap_cons, List.append_assoc,
      List.singleton_append]
    exact List.Perm.append_left _ List.perm_middle.symm
  | finish before after task _ ih => simpa [waiting] using ih

theorem waiting_submitted (tasks : List α) : waiting (submitted tasks : Pool α β) = tasks := by
  simp [waiting, submitted, List.filterMap_map]

theorem waiting_of_complete {results : List β} (complete : results? p = some results) :
    waiting p = [] := by
  induction p generalizing results with
  | nil => rfl
  | cons stage rest ih =>
    simp only [results?, List.mapM_cons, Option.bind_eq_bind, Option.bind_eq_some_iff] at complete
    obtain ⟨result, head, others, tail, -⟩ := complete
    cases stage with
    | waiting task => cases head
    | running task => cases head
    | finished value => exact ih tail

theorem Begins.perm_submitted {tasks : List α}
    (begins : Begins workers work (submitted tasks) begun q) {results : List β}
    (complete : results? q = some results) : begun.Perm tasks := by
  have all := begins.perm
  rwa [waiting_of_complete complete, List.append_nil, waiting_submitted] at all

end Begins

section Executes
variable {workers : Int} {work : α → Except ε β} {tasks begun : List α}
  {outcome : Except ε (List β)}

theorem begunInTurn_of_ok {results : List β} (gathered : tasks.mapM work = .ok results) :
    begunInTurn work tasks = tasks := by
  induction tasks generalizing results with
  | nil => rfl
  | cons task tasks ih =>
    rw [List.mapM_cons] at gathered
    obtain ⟨result, head, gathered⟩ := bind_eq_ok_iff.mp gathered
    obtain ⟨others, tail, -⟩ := bind_eq_ok_iff.mp gathered
    rw [begunInTurn, head]
    exact congrArg (task :: ·) (ih tail)

theorem Executes.perm {results : List β}
    (executed : Executes workers work tasks begun (.ok results)) :
    begun.Perm tasks := by
  generalize same : (Except.ok results : Except ε (List β)) = outcome at executed
  cases executed with
  | inTurn few => rw [begunInTurn_of_ok same.symm]
  | pooled many begins complete => exact begins.perm_submitted complete

end Executes
end Pool
end SeoAudit
