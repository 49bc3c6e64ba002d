import SeoAudit.Yaml.Token

/-! Nodes of a YAML document. A scalar keeps its text and whether it was written
plain; a tag that was not written is left open. An alias is a reference to the node that
its anchor names; a collection is not unfolded inside itself. -/
namespace SeoAudit.Yaml

inductive Node where
  | scalar (tag : Option String) (text : Text) (plain : Bool)
  | sequence (tag : Option String) (items : List Node)
  | mapping (tag : Option String) (pairs : List (Node × Node))
  | reference (name : String) (node : Node)
deriving Inhabited

abbrev Anchors := List (String × Node)

structure Document where
  node : Option Node := none
  anchors : Anchors := []
deriving Inhabited

namespace Node

def empty : Node := scalar none "" true

def textTag : String := "tag:yaml.org,2002:str"

def asText : Node → Node
  | scalar _ text isPlain => scalar (some textTag) text isPlain
  | sequence _ items => sequence (some textTag) items
  | mapping _ pairs => mapping (some textTag) pairs
  | reference _ node => node.asText

def bare : Node → Node
  | reference _ node => node.bare
  | node => node

/-- Handles of tags and what they stand for. -/
abbrev Handles := List (String × String)

def defaultHandles : Handles := [("!", "!"), ("!!", "tag:yaml.org,2002:")]

structure Reading where
  tokens : List Token
  anchors : Anchors := []

namespace Reading

def peek (r : Reading) : Except Error (Option Token) :=
  match r.tokens with
  | [] => .ok none
  | .fault e :: _ => .error e
  | t :: _ => .ok (some t)

def next (r : Reading) : Reading := { r with tokens := r.tokens.tail }

def isAt (r : Reading) (t : Token) : Except Error Bool := (· = some t) <$> r.peek

def isAny (r : Reading) (ts : List Token) : Except Error Bool := (·.any ts.contains) <$> r.peek

def expect (t : Token) (r : Reading) : Except Error Reading := do
  if ← r.isAt t then pure r.next else throw .malformed

end Reading

structure Properties where
  anchor : Option String := none
  tag : Option String := none

def resolveTag (handles : Handles) (handle : Option String) (suffix : String) :
    Except Error String :=
  match handle with
  | none => .ok suffix
  | some h => Error.orMalformed ((handles.lookup h).map (· ++ suffix))

def properties (handles : Handles) (r : Reading) : Except Error (Properties × Reading) := do
  match ← r.peek with
  | some (.anchor a) =>
    match ← r.next.peek with
    | some (.tag h s) => return (⟨some a, some (← resolveTag handles h s)⟩, r.next.next)
    | _ => pure (⟨some a, none⟩, r.next)
  | some (.tag h s) =>
    match ← r.next.peek with
    | some (.anchor a) => return (⟨some a, some (← resolveTag handles h s)⟩, r.next.next)
    | _ => return (⟨none, some (← resolveTag handles h s)⟩, r.next)
  | _ => pure ({}, r)

def keptTag (tag : Option String) : Option String := if tag = some "!" then none else tag

def ofScalar (tag : Option String) (text : Text) (isPlain : Bool) : Node :=
  scalar (keptTag tag) text (isPlain || tag = some "!")

def checkName (r : Reading) (anchor : Option String) : Except Error Unit :=
  if (anchor.bind (r.anchors.lookup ·)).isSome then .error .malformed else .ok ()

def named (anchor : Option String) (node : Node) (r : Reading) : Node × Reading :=
  match anchor with
  | none => (node, r)
  | some name => (node, { r with anchors := (name, node) :: r.anchors })

/-- Where a node stands decides which collections may start it. -/
inductive Place where
  | block | blockValue | flow
deriving DecidableEq

def depthLimit : Nat := 488

inductive Content where
  | text (text : Text) (plain : Bool)
  | blockSequence
  | indentlessSequence
  | blockMapping
  | flowSequence
  | flowMapping
  | nothing

def content (place : Place) (r : Reading) : Except Error Content := do
  match ← r.peek, place with
  | some (.scalar text isPlain), _ => pure (.text text isPlain)
  | some .flowSequenceStart, _ => pure .flowSequence
  | some .flowMappingStart, _ => pure .flowMapping
  | some .blockEntry, .blockValue => pure .indentlessSequence
  | some .blockSequenceStart, .block | some .blockSequenceStart, .blockValue => pure .blockSequence
  | some .blockMappingStart, .block | some .blockMappingStart, .blockValue => pure .blockMapping
  | _, _ => pure .nothing

/-- Gives the anchor of a collection that is about to be read to an empty one: inside the
collection an alias of it stands for that. -/
def opened (p : Properties) (content : Content) (r : Reading) : Reading :=
  match content with
  | .blockSequence | .indentlessSequence | .flowSequence =>
    (named p.anchor (sequence (keptTag p.tag) []) r).2
  | .blockMapping | .flowMapping => (named p.anchor (mapping (keptTag p.tag) []) r).2
  | .text _ _ | .nothing => r

mutual

/-- A node; `fuel` bounds the tokens read and `depth` the nesting. -/
def read (handles : Handles) (depth : Nat) (place : Place) :
    (fuel : Nat) → Reading → Except Error (Node × Reading)
  | 0, _ => .error .malformed
  | fuel + 1, r => do
    match ← r.peek with
    | some (.alias name) =>
      let node ← Error.orMalformed (r.anchors.lookup name)
      pure (reference name node, r.next)
    | _ =>
      let (p, r) ← properties handles r
      let content ← content place r
      checkName r p.anchor
      let (node, r) ← readContent handles depth fuel p content (opened p content r)
      pure (named p.anchor node r)
termination_by structural fuel => fuel

def readContent (handles : Handles) :
    (depth fuel : Nat) → Properties → Content → Reading → Except Error (Node × Reading)
  | _, 0, _, _, _ => .error .malformed
  | _, _ + 1, p, .text text isPlain, r =>
    .ok (ofScalar p.tag text (isPlain && p.tag.isNone), r.next)
  | _, _ + 1, p, .nothing, r =>
    if p.anchor.isSome || p.tag.isSome then .ok (ofScalar p.tag "" p.tag.isNone, r)
    else .error .malformed
  | 0, _ + 1, _, _, _ => .error .tooDeep
  | depth + 1, fuel + 1, p, .indentlessSequence, r => do
    let (items, r) ← readEntries handles depth [.blockEntry, .key, .value, .blockEnd] fuel r
    pure (sequence (keptTag p.tag) items, r)
  | depth + 1, fuel + 1, p, .flowSequence, r => do
    let (items, r) ← readFlowItems handles depth true fuel r.next
    pure (sequence (keptTag p.tag) items, r)
  | depth + 1, fuel + 1, p, .flowMapping, r => do
    let (pairs, r) ← readFlowPairs handles depth true fuel r.next
    pure (mapping (keptTag p.tag) pairs, r)
  | depth + 1, fuel + 1, p, .blockSequence, r => do
    let (items, r) ← readEntries handles depth [.blockEntry, .blockEnd] fuel r.next
    let r ← r.expect .blockEnd
    pure (sequence (keptTag p.tag) items, r)
  | depth + 1, fuel + 1, p, .blockMapping, r => do
    let (pairs, r) ← readPairs handles depth fuel r.next
    pure (mapping (keptTag p.tag) pairs, r)
termination_by structural _ fuel => fuel

def readEntries (handles : Handles) (depth : Nat) (ends : List Token) :
    (fuel : Nat) → Reading → Except Error (List Node × Reading)
  | 0, _ => .error .malformed
  | fuel + 1, r => do
    if ← r.isAt .blockEntry then
      let (item, r) ← readUnless handles depth .block ends fuel r.next
      let (items, r) ← readEntries handles depth ends fuel r
      pure (item :: items, r)
    else pure ([], r)
termination_by structural fuel => fuel

def readUnless (handles : Handles) (depth : Nat) (place : Place) (ends : List Token) :
    (fuel : Nat) → Reading → Except Error (Node × Reading)
  | 0, _ => .error .malformed
  | fuel + 1, r => do
    if ← r.isAny ends then pure (empty, r) else read handles depth place fuel r
termination_by structural fuel => fuel

def readValue (handles : Handles) (depth : Nat) (place : Place) (ends : List Token) :
    (fuel : Nat) → Reading → Except Error (Node × Reading)
  | 0, _ => .error .malformed
  | fuel + 1, r => do
    if ← r.isAt .value then readUnless handles depth place ends fuel r.next else pure (empty, r)
termination_by structural fuel => fuel

def readPairs (handles : Handles) (depth : Nat) :
    (fuel : Nat) → Reading → Except Error (List (Node × Node) × Reading)
  | 0, _ => .error .malformed
  | fuel + 1, r => do
    if ← r.isAt .key then
      let (k, r) ← readUnless handles depth .blockValue [.key, .value, .blockEnd] fuel r.next
      let (v, r) ← readValue handles depth .blockValue [.key, .value, .blockEnd] fuel r
      let (pairs, r) ← readPairs handles depth fuel r
      pure ((k, v) :: pairs, r)
    else
      let r ← r.expect .blockEnd
      pure ([], r)
termination_by structural fuel => fuel

/-- Items of a flow sequence with its end; a pair without braces is a mapping. -/
def readFlowItems (handles : Handles) (depth : Nat) (first : Bool) :
    (fuel : Nat) → Reading → Except Error (List Node × Reading)
  | 0, _ => .error .malformed
  | fuel + 1, r => do
    if ← r.isAt .flowSequenceEnd then return ([], r.next)
    let r ← if first then pure r else r.expect .flowEntry
    if ← r.isAt .flowSequenceEnd then pure ([], r.next)
    else if ← r.isAt .key then
      match depth with
      | 0 => throw .tooDeep
      | inner + 1 =>
        let (k, r) ← readUnless handles inner .flow
            [.value, .flowEntry, .flowSequenceEnd] fuel r.next
        let (v, r) ← readValue handles inner .flow [.flowEntry, .flowSequenceEnd] fuel r
        let (items, r) ← readFlowItems handles depth false fuel r
        pure (mapping none [(k, v)] :: items, r)
    else
      let (item, r) ← read handles depth .flow fuel r
      let (items, r) ← readFlowItems handles depth false fuel r
      pure (item :: items, r)
termination_by structural fuel => fuel

/-- Pairs of a flow mapping with its end; a node alone is a key without a value. -/
def readFlowPairs (handles : Handles) (depth : Nat) (first : Bool) :
    (fuel : Nat) → Reading → Except Error (List (Node × Node) × Reading)
  | 0, _ => .error .malformed
  | fuel + 1, r => do
    if ← r.isAt .flowMappingEnd then return ([], r.next)
    let r ← if first then pure r else r.expect .flowEntry
    if ← r.isAt .flowMappingEnd then pure ([], r.next)
    else if ← r.isAt .key then
      let (k, r) ← readUnless handles depth .flow
          [.value, .flowEntry, .flowMappingEnd] fuel r.next
      let (v, r) ← readValue handles depth .flow [.flowEntry, .flowMappingEnd] fuel r
      let (pairs, r) ← readFlowPairs handles depth false fuel r
      pure ((k, v) :: pairs, r)
    else
      let (k, r) ← read handles depth .flow fuel r
      let (pairs, r) ← readFlowPairs handles depth false fuel r
      pure ((k, empty) :: pairs, r)
termination_by structural fuel => fuel

end

/-- The directives before a document: at most one version, of major number 1, and
each handle at most once. -/
def directives (hasVersion : Bool) (given : Handles) :
    List Token → Except Error (Handles × List Token)
  | .version major :: rest =>
    if hasVersion || major ≠ 1 then .error .malformed else directives true given rest
  | .tagHandle handle expansion :: rest =>
    if (given.lookup handle).isSome then .error .malformed
    else directives hasVersion ((handle, expansion) :: given) rest
  | .otherDirective :: rest => directives hasVersion given rest
  | .fault e :: _ => .error e
  | rest => .ok (given ++ defaultHandles, rest)

def startsDocument : Option Token → Bool
  | some (.version _) | some (.tagHandle _ _) | some .otherDirective | some .documentStart => true
  | _ => false

def documentContent (handles : Handles) (r : Reading) : Except Error (Node × Reading) := do
  let t ← r.peek
  if t.isNone || startsDocument t || t = some .documentEnd then pure (empty, r)
  else read handles depthLimit .block (4 * r.tokens.length + 8) r

def document (tokens : List Token) : Except Error (Option Node × Reading) := do
  let r : Reading := { tokens }
  match ← r.peek with
  | none => pure (none, r)
  | some t =>
    if startsDocument (some t) then
      let (handles, rest) ← directives false [] tokens
      let r ← Reading.expect .documentStart { tokens := rest }
      let (node, r) ← documentContent handles r
      pure (some node, r)
    else
      let (node, r) ← read defaultHandles depthLimit .block (4 * tokens.length + 8) r
      pure (some node, r)

def checkEnd (tokens : List Token) : Except Error Unit :=
  match tokens.dropWhile (· = .documentEnd) with
  | [] => .ok ()
  | rest => do
    let _ ← directives false [] rest
    throw .malformed

end Node

def Document.ofTokens (tokens : List Token) : Except Error Document := do
  let (node, r) ← Node.document tokens
  Node.checkEnd r.tokens
  pure { node, anchors := r.anchors }

end SeoAudit.Yaml
