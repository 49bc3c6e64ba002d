import SeoAudit.Proofs.EngineCalls

/-! The verdict of an evaluation. An evaluation ends in an object or in a note, whatever the
engine does, and asks the engine at most once, for a definition that has been found. Only a
place that is too long to be looked up, when the source file is looked for there, keeps an
evaluation from ending. -/
namespace SeoAudit

theorem Reply.decode_eq_ok_iff {reply : Reply} {members : Members} :
    reply.decode = .ok members ↔
      ∃ text, reply = .returned (.string text) ∧ Json.read text = .ok (.object members) := by
  constructor
  · intro decoded
    unfold Reply.decode at decoded
    split at decoded
    · cases decoded
    · cases decoded
    · rename_i text
      refine ⟨text, rfl, ?_⟩
      cases read : Json.read text with
      | error e =>
        rw [read] at decoded
        cases decoded
      | ok value =>
        rw [read] at decoded
        cases value with
        | object members' => rw [Except.ok.inj decoded]
        | null | bool | number | string | array => cases decoded
    · cases decoded
  · rintro ⟨text, rfl, read⟩
    rw [Reply.decode, read]

namespace Generator

namespace Verdict

theorem output?_eq_none_iff (v : Verdict) : v.output? = none ↔ v.note? ≠ none := by
  cases v with
  | output members => simp [output?, note?]
  | sourceMissing | unreadable | undefined | failed => simp [output?, note?]

theorem note?_ne_nil (v : Verdict) : v.note? ≠ some [] := by
  cases v with
  | output members => nofun
  | sourceMissing => decide
  | unreadable name error => simp [note?, failure, Text.ofString, Text.ofChars]
  | undefined name => simp [note?, Parameters.generatorName, Text.ofString, Text.ofChars]
  | failed fault => simp [note?, failure, Text.ofString, Text.ofChars]

end Verdict

theorem verdictOf_output_iff {reply : Reply} {members : Members} :
    (verdictOf reply).output? = some members ↔ reply.decode = .ok members := by
  constructor
  · exact verdictOf_output
  · intro decoded
    rw [verdictOf, decoded]
    rfl

variable {g : Generator} {tree : Tree} {definition : Text}

def places (g : Generator) : List Path :=
  match g.source with
  | some path => [path]
  | none => g.candidates.map g.root.join

theorem locate_eq (g : Generator) (tree : Tree) :
    g.locate tree = Tree.firstWhere tree.isFileAt g.places := by
  unfold locate places
  cases g.source <;> rfl

theorem locate_cases (g : Generator) (tree : Tree) :
    (∃ place ∈ g.places, ¬ place.IsShort ∧ g.locate tree = .error (.tooLong place.text)) ∨
      ∃ source, g.locate tree = .ok source := by
  rw [locate_eq]
  cases located : Tree.firstWhere tree.isFileAt g.places with
  | ok source => exact .inr ⟨source, rfl⟩
  | error e =>
    obtain ⟨place, member, refused⟩ := Tree.firstWhere_error located
    obtain ⟨rfl, long⟩ := Tree.isFileAt_error refused
    exact .inl ⟨place, member, long, rfl⟩

def Defines (g : Generator) (tree : Tree) (definition : Text) : Prop :=
  ∃ path source, g.locate tree = .ok (some path) ∧ tree.readText path = .ok source ∧
    Definition.find? source = some definition

theorem definition?_eq_some_iff :
    g.definition? tree = some definition ↔ g.Defines tree definition := by
  unfold definition? Defines
  simp only [Option.bind_eq_bind, Option.bind_eq_some_iff, Option.join_eq_some_iff,
    toOption_eq_some_iff, exists_and_left]

theorem evaluate_of_definition (found : g.definition? tree = some definition) (engine : Engine)
    (params : Parameters) :
    g.evaluate tree engine params = .ok
      { verdict := verdictOf (engine (g.request definition params).1 g.timeout)
        calls := [g.request definition params] } := by
  obtain ⟨path, source, located, read, defined⟩ := definition?_eq_some_iff.mp found
  have looked : g.definition tree = .ok (.ok definition) := by
    rw [Generator.definition, located]
    show Except.ok (definitionIn tree path) = _
    rw [definitionIn, read]
    simp only [defined]
  rw [evaluate, looked]
  rfl

theorem evaluate_of_no_definition (missing : g.definition? tree = none)
    (located : ∃ source, g.locate tree = .ok source) :
    ∃ verdict : Verdict, verdict.output? = none ∧
      ∀ engine params, g.evaluate tree engine params = .ok { verdict } := by
  obtain ⟨source, located⟩ := located
  unfold definition? at missing
  unfold evaluate Generator.definition
  rw [located] at missing ⊢
  cases source with
  | none => exact ⟨.sourceMissing, rfl, fun _ _ => rfl⟩
  | some path =>
    show ∃ verdict : Verdict, verdict.output? = none ∧ ∀ engine params,
      (Except.ok (definitionIn tree path)).map (g.runDefinition engine params) = .ok { verdict }
    unfold definitionIn
    cases read : tree.readText path with
    | error e => exact ⟨.unreadable path.name e, rfl, fun _ _ => rfl⟩
    | ok text =>
      have absent : Definition.find? text = none := by
        simpa [read, Except.toOption] using missing
      simp only [absent]
      exact ⟨.undefined path.name, rfl, fun _ _ => rfl⟩

/-- What an evaluation owes to its caller. -/
structure Evaluation.Settles (e : Evaluation) (g : Generator) (tree : Tree) (engine : Engine)
    (params : Parameters) : Prop where
  /-- There is either an output or a note. -/
  decides : e.verdict.output? = none ↔ e.verdict.note? ≠ none
  explains : e.verdict.note? ≠ some []
  output (members : Members) : e.verdict.output? = some members ↔
    ∃ definition text, g.Defines tree definition ∧
      engine (g.request definition params).1 g.timeout = .returned (.string text) ∧
      Json.read text = .ok (.object members)
  /-- The engine gets the script for the definition, and nothing before that is found. -/
  calls (call : Text × Int) : call ∈ e.calls ↔
    ∃ definition, g.Defines tree definition ∧ call = g.request definition params
  once : e.calls.length ≤ 1
  /-- What an engine would make of any other script plays no part. -/
  asks (other : Engine) (alike : ∀ call ∈ e.calls, other call.1 call.2 = engine call.1 call.2) :
    g.evaluate tree other params = .ok e

/-- An evaluation ends in one verdict, unless it comes to a place that is too long. -/
theorem evaluate_settles (g : Generator) (tree : Tree) (engine : Engine) (params : Parameters) :
    (∃ place ∈ g.places, ¬ place.IsShort ∧
      g.evaluate tree engine params = .error (.tooLong place.text)) ∨
    ∃ e, g.evaluate tree engine params = .ok e ∧ e.Settles g tree engine params := by
  rcases g.locate_cases tree with ⟨place, member, long, refused⟩ | located
  · refine .inl ⟨place, member, long, ?_⟩
    rw [evaluate, Generator.definition, refused]
    rfl
  · refine .inr ?_
    have only (definition : Text) :
        g.Defines tree definition ↔ g.definition? tree = some definition :=
      definition?_eq_some_iff.symm
    cases found : g.definition? tree with
    | some definition =>
      refine ⟨_, evaluate_of_definition found engine params, ?_⟩
      constructor
      case decides => exact Verdict.output?_eq_none_iff _
      case explains => exact Verdict.note?_ne_nil _
      case output =>
        intro members
        have decoded : (verdictOf (engine (g.request definition params).1 g.timeout)).output? =
            some members ↔
              (engine (g.request definition params).1 g.timeout).decode = .ok members :=
          verdictOf_output_iff
        simp only [only, found, Option.some.injEq, exists_eq_left', decoded,
          Reply.decode_eq_ok_iff, exists_and_left]
      case calls => simp [only, found]
      case once => exact Nat.le_refl 1
      case asks =>
        intro other alike
        have same := alike _ List.mem_cons_self
        rw [evaluate_of_definition found]
        exact congrArg (fun reply => Except.ok (Evaluation.mk (verdictOf reply)
          [g.request definition params])) same
    | none =>
      obtain ⟨verdict, absent, evaluated⟩ := evaluate_of_no_definition found located
      refine ⟨_, evaluated engine params, ?_⟩
      constructor
      case decides => exact Verdict.output?_eq_none_iff _
      case explains => exact Verdict.note?_ne_nil _
      case output => simp [only, found, absent]
      case calls => simp [only, found]
      case once => exact Nat.zero_le 1
      case asks => exact fun other _ => evaluated other params

def misnamed : Generator :=
  { root := { segments := [] }, source := some { segments := [List.replicate 256 (.char 'a')] } }

/-- Its evaluation ends in no verdict. -/
theorem misnamed_is_not_settled :
    ¬ ∀ (g : Generator) (tree : Tree) (engine : Engine) (params : Parameters),
      ∃ e, g.evaluate tree engine params = .ok e := by
  intro law
  obtain ⟨e, evaluated⟩ := law misnamed (.directory []) (fun _ _ => .returned .null) {}
  have refused : misnamed.locate (.directory []) =
      .error (.tooLong (Path.text { segments := [List.replicate 256 (.char 'a')] })) := by
    decide +kernel
  rw [evaluate, Generator.definition, refused] at evaluated
  cases evaluated

end Generator
end SeoAudit
