import JobEngine.Yaml.Token

/-!
# Nodes

The tokens of a text form at most one document. An anchor gives a node a
number; an alias refers to the latest anchor of its name that stands before
it, which may be that of a node around it.
-/
namespace JobEngine.Yaml

inductive Node
  | scalar (style : Style) (tag : Option String) (text : String)
  | sequence (items : List Node)
  | mapping (entries : List (Node × Node))
  | alias (anchor : Nat)
deriving Repr, Inhabited

namespace Node

/-- Nothing was written where a node was expected. -/
def missing : Node := .scalar .plain none ""

end Node

/-- Tokens that are left, with the anchors seen and the nodes they stand for. -/
structure Composing where
  tokens : List Token
  handles : List (String × String) := []
  /-- The latest first. -/
  anchors : List (String × Nat) := []
  nodes : List (Nat × Node) := []

namespace Composing

abbrev Result (α : Type) := Option (α × Composing)

def drop (s : Composing) : Composing := { s with tokens := s.tokens.drop 1 }

def standardHandles : List (String × String) := [("!", "!"), ("!!", "tag:yaml.org,2002:")]

def tag? (s : Composing) (handle suffix : String) : Option String :=
  if handle.isEmpty then some suffix
  else ((s.handles ++ standardHandles).find? (·.1 = handle)).map fun h => h.2 ++ suffix

/-- The anchor and the tag before a node, in either order. -/
def properties? (s : Composing) : Option (Option String × Option String × Composing) :=
  match s.tokens with
  | .anchor name :: .tag handle suffix :: rest | .tag handle suffix :: .anchor name :: rest =>
    (s.tag? handle suffix).map fun tag => (some name, some tag, { s with tokens := rest })
  | .anchor name :: rest => some (some name, none, { s with tokens := rest })
  | .tag handle suffix :: rest =>
    (s.tag? handle suffix).map fun tag => (none, some tag, { s with tokens := rest })
  | _ => some (none, none, s)

/-- Gives a number to an anchor, from its place on. -/
def declare (s : Composing) : Option String → Option Nat × Composing
  | none => (none, s)
  | some name =>
    let number := s.anchors.length
    (some number, { s with anchors := (name, number) :: s.anchors })

def define (number : Option Nat) (node : Node) (s : Composing) : Node × Composing :=
  match number with
  | none => (node, s)
  | some n => (node, { s with nodes := (n, node) :: s.nodes })

/-- Whether the next token ends the place of a node in a block. -/
def endsBlockNode (s : Composing) : Bool :=
  match s.tokens with
  | .key :: _ | .value :: _ | .blockEnd :: _ => true
  | _ => false

def endsFlowNode (close : Token) (s : Composing) : Bool :=
  match s.tokens with
  | t :: _ => t = .value || t = .flowEntry || t = close
  | [] => true

mutual

/-- A node; `block` allows block collections and `bare` entries without an indentation of their
own. -/
def node? (block bare : Bool) : Nat → Composing → Result Node
  | 0, _ => none
  | fuel + 1, s =>
    match s.tokens with
    | .alias name :: rest =>
      (s.anchors.find? (·.1 = name)).map fun a => (.alias a.2, { s with tokens := rest })
    | _ =>
      match s.properties? with
      | none => none
      | some (anchor, tag, s) =>
        let (number, s) := s.declare anchor
        let finish (r : Result Node) : Result Node := r.map fun (n, s) => define number n s
        match s.tokens with
        | .scalar style text :: _ => finish (some (.scalar style tag text, s.drop))
        | .openSequence :: _ =>
          finish ((flowItems? true fuel s.drop).map fun (items, s) => (.sequence items, s))
        | .openMapping :: _ =>
          finish ((flowEntries? true fuel s.drop).map fun (es, s) => (.mapping es, s))
        | .blockEntry :: _ =>
          if bare then
            finish ((bareItems? fuel s).map fun (items, s) => (.sequence items, s))
          else if anchor.isSome || tag.isSome then
            finish (some (.scalar .plain tag "", s))
          else none
        | .blockSequence :: _ =>
          if block then
            finish ((blockItems? fuel s.drop).map fun (items, s) => (.sequence items, s))
          else if anchor.isSome || tag.isSome then
            finish (some (.scalar .plain tag "", s))
          else none
        | .blockMapping :: _ =>
          if block then
            finish ((blockEntries? fuel s.drop).map fun (es, s) => (.mapping es, s))
          else if anchor.isSome || tag.isSome then
            finish (some (.scalar .plain tag "", s))
          else none
        | _ =>
          if anchor.isSome || tag.isSome then finish (some (.scalar .plain tag "", s))
          else none

/-- The entries of a block sequence up to its end. -/
def blockItems? : Nat → Composing → Result (List Node)
  | 0, _ => none
  | fuel + 1, s =>
    match s.tokens with
    | .blockEnd :: _ => some ([], s.drop)
    | .blockEntry :: next :: _ =>
      let first : Result Node :=
        if next = .blockEntry ∨ next = .blockEnd then some (.missing, s.drop)
        else node? true false fuel s.drop
      match first with
      | none => none
      | some (item, s) => (blockItems? fuel s).map fun (items, s) => (item :: items, s)
    | _ => none

/-- Entries that are indented like the key they belong to. -/
def bareItems? : Nat → Composing → Result (List Node)
  | 0, _ => none
  | fuel + 1, s =>
    match s.tokens with
    | .blockEntry :: next :: _ =>
      let first : Result Node :=
        if next = .blockEntry ∨ next = .key ∨ next = .value ∨ next = .blockEnd then
          some (.missing, s.drop)
        else node? true false fuel s.drop
      match first with
      | none => none
      | some (item, s) => (bareItems? fuel s).map fun (items, s) => (item :: items, s)
    | _ => some ([], s)

/-- The entries of a block mapping up to its end. -/
def blockEntries? : Nat → Composing → Result (List (Node × Node))
  | 0, _ => none
  | fuel + 1, s =>
    match s.tokens with
    | .blockEnd :: _ => some ([], s.drop)
    | .key :: _ =>
      let key : Result Node :=
        if s.drop.endsBlockNode then some (.missing, s.drop) else node? true true fuel s.drop
      match key with
      | none => none
      | some (key, s) =>
        let value : Result Node :=
          match s.tokens with
          | .value :: _ =>
            if s.drop.endsBlockNode then some (.missing, s.drop)
            else node? true true fuel s.drop
          | _ => some (.missing, s)
        match value with
        | none => none
        | some (value, s) =>
          (blockEntries? fuel s).map fun (es, s) => ((key, value) :: es, s)
    | _ => none

/-- The items of a flow sequence; one of them may be a single pair of a key and a value. -/
def flowItems? (first : Bool) : Nat → Composing → Result (List Node)
  | 0, _ => none
  | fuel + 1, s =>
    match s.tokens with
    | .closeSequence :: _ => some ([], s.drop)
    | t :: _ =>
      if !first ∧ t ≠ .flowEntry then none
      else
        let s := if first then s else s.drop
        match s.tokens with
        | .closeSequence :: _ => some ([], s.drop)
        | .key :: _ =>
          match flowPair? .closeSequence fuel s.drop with
          | none => none
          | some (pair, s) =>
            (flowItems? false fuel s).map fun (items, s) => (.mapping [pair] :: items, s)
        | _ =>
          match node? false false fuel s with
          | none => none
          | some (item, s) => (flowItems? false fuel s).map fun (items, s) => (item :: items, s)
    | [] => none

/-- A key and its value in a flow collection, either of which may be missing. -/
def flowPair? (close : Token) : Nat → Composing → Result (Node × Node)
  | 0, _ => none
  | fuel + 1, s =>
    let key : Result Node :=
      if s.endsFlowNode close then some (.missing, s) else node? false false fuel s
    match key with
    | none => none
    | some (key, s) =>
      match s.tokens with
      | .value :: next :: _ =>
        if next = .flowEntry ∨ next = close then some ((key, .missing), s.drop)
        else (node? false false fuel s.drop).map fun (value, s) => ((key, value), s)
      | _ => some ((key, .missing), s)

/-- The entries of a flow mapping. -/
def flowEntries? (first : Bool) : Nat → Composing → Result (List (Node × Node))
  | 0, _ => none
  | fuel + 1, s =>
    match s.tokens with
    | .closeMapping :: _ => some ([], s.drop)
    | t :: _ =>
      if !first ∧ t ≠ .flowEntry then none
      else
        let s := if first then s else s.drop
        match s.tokens with
        | .closeMapping :: _ => some ([], s.drop)
        | .key :: _ =>
          match flowPair? .closeMapping fuel s.drop with
          | none => none
          | some (pair, s) =>
            (flowEntries? false fuel s).map fun (es, s) => (pair :: es, s)
        | _ =>
          match node? false false fuel s with
          | none => none
          | some (key, s) =>
            (flowEntries? false fuel s).map fun (es, s) => ((key, .missing) :: es, s)
    | [] => none

end

/-- Directives before a document: one version, of the first generation, and handles without
repetition. -/
def directives? : Nat → Bool → Composing → Option Composing
  | 0, _, _ => none
  | fuel + 1, versioned, s =>
    match s.tokens with
    | .version major minor :: _ =>
      if versioned ∨ major ≠ 1 ∨ (minor ≠ 1 ∧ minor ≠ 2) then none
      else directives? fuel true s.drop
    | .tagDirective handle start :: _ =>
      if s.handles.any (·.1 = handle) then none
      else directives? fuel versioned { s.drop with handles := (handle, start) :: s.handles }
    | .documentStart :: _ => some s.drop
    | _ => none

def startsDocument : Token → Bool
  | .version _ _ | .tagDirective _ _ | .documentStart => true
  | _ => false

def content? (s : Composing) : Result Node :=
  node? true false (4 * s.tokens.length + 8) s

/-- The one document of a stream, or a missing node if there is none. -/
def stream? (s : Composing) : Option (Node × Composing) := do
  let (root, s) ← match s.tokens with
    | [.streamEnd] => some (Node.missing, s)
    | t :: _ =>
      if startsDocument t then do
        let s ← directives? (s.tokens.length + 1) false s
        match s.tokens with
        | .documentEnd :: _ | .streamEnd :: _ => some (Node.missing, s)
        | t :: _ => if startsDocument t then some (Node.missing, s) else s.content?
        | [] => none
      else s.content?
    | [] => none
  if s.tokens.dropWhile (· = .documentEnd) = [.streamEnd] then return (root, s) else none

end Composing

/-- A composed text: its root and the nodes that aliases refer to. -/
structure Tree where
  root : Node
  anchored : List (Nat × Node) := []

def Tree.read? (text : String) : Option Tree := do
  let tokens ← Token.scan? text
  let (root, s) ← Composing.stream? { tokens }
  return ⟨root, s.nodes⟩

/-- The node that is meant; an alias to an alias does not occur. -/
def Tree.resolve (d : Tree) : Node → Option Node
  | .alias n => (d.anchored.find? (·.1 = n)).map (·.2)
  | node => some node

end JobEngine.Yaml
