import SeoAudit.Text.Utf8
import SeoAudit.Tree.Path

/-! File trees. A directory lists its entries by their stored names in some order; a file
holds octets. Looking up a path follows its segments one by one, so every segment but
the last must name a directory that is there, also one before a `..`. A path that is
too long is refused, in whole or at the first segment that is, when it comes to that. -/
namespace SeoAudit

inductive Tree where
  | file (content : List UInt8)
  | directory (entries : List (Text × Tree))
deriving Inhabited

namespace Tree

inductive LookupError where
  | missing
  | notDirectory
  | tooLong
  | badPath (error : PathError)
deriving DecidableEq, Repr

def entry (name : Text) : Tree → Except LookupError Tree
  | file _ => .error .notDirectory
  | directory entries =>
    if Path.segmentLimit < Name.octetTotal name then .error .tooLong
    else match entries.lookup (Name.stored name) with
      | some t => .ok t
      | none => .error .missing

def isFile : Tree → Bool
  | file _ => true
  | directory _ => false

def isDirectory : Tree → Bool
  | directory _ => true
  | file _ => false

/-- Follows segments from a node; `above` holds the nodes on the way to it. -/
def follow (above : List Tree) (here : Tree) : List Text → Except LookupError Tree
  | [] => .ok here
  | segment :: rest =>
    if segment = ".." then
      if here.isDirectory then
        match above with
        | [] => follow [] here rest
        | up :: further => follow further up rest
      else .error .notDirectory
    else
      match here.entry segment with
      | .error e => .error e
      | .ok next => follow (here :: above) next rest

def lookupAs (text : Text) (t : Tree) (p : Path) : Except LookupError Tree :=
  match Path.fault? text with
  | some e => .error (.badPath e)
  | none =>
    if Path.textLimit < Name.octetTotal text then .error .tooLong else follow [] t p.segments

def lookup (t : Tree) (p : Path) : Except LookupError Tree := lookupAs p.text t p

/-- Whether there is a node with a property at a path that is written as a text. -/
def holdsAs (text : Text) (property : Tree → Bool) (t : Tree) (p : Path) :
    Except PathError Bool :=
  match lookupAs text t p with
  | .ok node => .ok (property node)
  | .error .tooLong => .error (.tooLong text)
  | .error _ => .ok false

def existsAt (t : Tree) (p : Path) : Except PathError Bool := holdsAs p.text (fun _ => true) t p

def isFileAt (t : Tree) (p : Path) : Except PathError Bool := holdsAs p.text isFile t p

def isDirectoryAt (t : Tree) (p : Path) : Except PathError Bool := holdsAs p.text isDirectory t p

def firstWhere (test : Path → Except PathError Bool) :
    List Path → Except PathError (Option Path)
  | [] => .ok none
  | p :: ps => do
    if ← test p then pure (some p) else firstWhere test ps

inductive ReadError where
  | missing (path : Text)
  | notDirectory (path : Text)
  | isDirectory (path : Text)
  | badPath (error : PathError)
  | undecodable (error : Utf8.Error)
deriving DecidableEq, Repr

namespace ReadError

def message : ReadError → Text
  | missing path => "[Errno 2] No such file or directory: " ++ Quoted.encode path
  | notDirectory path => "[Errno 20] Not a directory: " ++ Quoted.encode path
  | isDirectory path => "[Errno 21] Is a directory: " ++ Quoted.encode path
  | badPath error => error.message
  | undecodable error => error.message

def ofLookup (p : Path) : LookupError → ReadError
  | .missing => missing p.text
  | .notDirectory => notDirectory p.text
  | .tooLong => badPath (.tooLong p.text)
  | .badPath e => ReadError.badPath e

end ReadError

def readText (t : Tree) (p : Path) : Except ReadError String :=
  match t.lookup p with
  | .error e => .error (.ofLookup p e)
  | .ok (directory _) => .error (.isDirectory p.text)
  | .ok (file content) =>
    match Utf8.readText content with
    | .ok text => .ok text
    | .error e => .error (.undecodable e)

def chain (node : Tree) : List Text → Tree
  | [] => node
  | segment :: rest => directory [(Name.stored segment, chain node rest)]

mutual

/-- The tree with a node placed at a path; missing directories are made. A node
below a file and a directory that is already there are left out. -/
def place (node : Tree) : List Text → Tree → Tree
  | [], here =>
    match node, here with
    | directory [], directory entries => directory entries
    | _, _ => node
  | _ :: _, file content => file content
  | segment :: rest, directory entries =>
    directory (placeIn node (Name.stored segment) rest entries)

def placeIn (node : Tree) (segment : Text) (rest : List Text) :
    List (Text × Tree) → List (Text × Tree)
  | [] => [(segment, chain node rest)]
  | (name, t) :: entries =>
    if name = segment then (name, place node rest t) :: entries
    else (name, t) :: placeIn node segment rest entries

end

end Tree
end SeoAudit
