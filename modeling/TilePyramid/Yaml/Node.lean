import TilePyramid.Yaml.Scanner

/-!
# Documents

A YAML document is a tree of scalars, sequences and mappings. A text holds one document; an empty
text stands for an empty scalar. Names given to nodes are replaced by the nodes, which must be
complete where the name is used.
-/

set_option autoImplicit false

namespace TilePyramid.Yaml

/-- A node of a document with the type that was asked for it, if any. -/
inductive Node where
  | scalar (tag : Option String) (style : Style) (text : String)
  | sequence (tag : Option String) (items : List Node)
  | mapping (tag : Option String) (pairs : List (Node × Node))

namespace Node

/-- A scalar that is left out. -/
def empty : Node := .scalar none .plain ""

/-- The start of the tags that YAML itself defines. -/
def coreTag : String := "tag:yaml.org,2002:"

/-- What handles of tags stand for. -/
abbrev Handles := List (String × String)

/-- The handles that need no directive. -/
def usualHandles : Handles := [("!", "!"), ("!!", coreTag)]

/-- The tokens that are left, and the named nodes, the latest first; a node that is not complete has
its name already. -/
structure Builder where
  tokens : List Token
  names : List (String × Option Node) := []

namespace Builder

def goOn (builder : Builder) (tokens : List Token) : Builder := { builder with tokens }

/-- Gives a name to the node that starts here. -/
def openName (builder : Builder) (name : Option String) : Builder :=
  { builder with names := (name.map (·, none)).toList ++ builder.names }

/-- Completes the latest open name. -/
def completeFirst (name : String) (node : Node) :
    List (String × Option Node) → List (String × Option Node)
  | [] => []
  | (other, held) :: rest =>
      if other = name ∧ held.isNone then (other, some node) :: rest
      else (other, held) :: completeFirst name node rest

/-- The node that had its name since it started is complete. -/
def closeName (builder : Builder) (name : Option String) (node : Node) : Builder :=
  match name with
  | some name => { builder with names := completeFirst name node builder.names }
  | none => builder

def named? (builder : Builder) (name : String) : Option Node := (builder.names.lookup name).join

end Builder

/-- What stands before a node: its name and its tag, in either order. -/
structure Properties where
  name : Option String := none
  tag : Option (String × String) := none

/-- There are properties. -/
def Properties.isSome (properties : Properties) : Bool :=
  properties.name.isSome || properties.tag.isSome

def splitProperties : List Token → Properties × List Token
  | .anchor name :: .tag handle suffix :: rest => ({ name, tag := some (handle, suffix) }, rest)
  | .anchor name :: rest => ({ name }, rest)
  | .tag handle suffix :: .anchor name :: rest => ({ name, tag := some (handle, suffix) }, rest)
  | .tag handle suffix :: rest => ({ tag := some (handle, suffix) }, rest)
  | rest => ({}, rest)

/-- The tag that a handle and a suffix write; the handle has to be known. -/
def resolveTag (handles : Handles) : Option (String × String) → Option (Option String)
  | none => some none
  | some (handle, suffix) =>
      if handle.isEmpty then some (some suffix)
      else (handles.lookup handle).map fun start => some (start ++ suffix)

/-- The tag of a scalar; an exclamation mark alone asks for none. -/
def scalarTag (tag : Option String) : Option String := if tag = some "!" then none else tag

/-- The next token is one of those for which a condition holds, or there is none. -/
def nextIs (condition : Token → Bool) (tokens : List Token) : Bool :=
  match tokens with
  | [] => true
  | token :: _ => condition token

/-- No node of a block list starts at the token. -/
def endsEntry : Token → Bool
  | .blockEntry | .blockEnd => true
  | _ => false

/-- No node of a list without indentation starts at the token. -/
def endsPlainEntry : Token → Bool
  | .blockEntry | .key | .value | .blockEnd => true
  | _ => false

/-- No key or value of a block starts at the token. -/
def endsPair : Token → Bool
  | .key | .value | .blockEnd => true
  | _ => false

/-- No key or value of a flow list starts at the token. -/
def endsFlowItem : Token → Bool
  | .value | .flowEntry | .flowSequenceEnd => true
  | _ => false

/-- No key or value of a flow mapping starts at the token. -/
def endsFlowPair : Token → Bool
  | .value | .flowEntry | .flowMappingEnd => true
  | _ => false

mutual

/-- Builds a node. In a block it may be a block; after a key it may be a list whose dashes stand
below the key. Every level of the tree has tokens of its own, so there are fewer levels than
tokens. -/
def build (handles : Handles) : (levels : Nat) → (inBlock afterKey : Bool) → Builder →
    Option (Node × Builder)
  | 0, _, _, _ => none
  | levels + 1, inBlock, afterKey, builder =>
      match builder.tokens with
      | .alias name :: rest => (builder.named? name).map (·, builder.goOn rest)
      | tokens => do
          let (properties, rest) := splitProperties tokens
          let tag ← resolveTag handles properties.tag
          let builder := (builder.goOn rest).openName properties.name
          let (node, builder) ←
            buildContent handles levels inBlock afterKey properties.isSome tag builder
          some (node, builder.closeName properties.name node)

/-- Builds what follows the properties of a node. -/
def buildContent (handles : Handles) : (levels : Nat) →
    (inBlock afterKey hasProperties : Bool) → (tag : Option String) → Builder →
    Option (Node × Builder)
  | 0, _, _, _, _, _ => none
  | levels + 1, inBlock, afterKey, hasProperties, tag, builder =>
      let absent : Option (Node × Builder) :=
        if hasProperties then some (.scalar tag .plain "", builder) else none
      match builder.tokens with
      | .scalar style text :: rest => some (.scalar (scalarTag tag) style text, builder.goOn rest)
      | .flowSequenceStart :: rest => do
          let (items, builder) ← buildFlowItems handles levels true (builder.goOn rest)
          some (.sequence tag items, builder)
      | .flowMappingStart :: rest => do
          let (pairs, builder) ← buildFlowPairs handles levels true (builder.goOn rest)
          some (.mapping tag pairs, builder)
      | .blockSequenceStart :: rest =>
          if inBlock then do
            let (items, builder) ← buildItems handles levels (builder.goOn rest)
            some (.sequence tag items, builder)
          else absent
      | .blockMappingStart :: rest =>
          if inBlock then do
            let (pairs, builder) ← buildPairs handles levels (builder.goOn rest)
            some (.mapping tag pairs, builder)
          else absent
      | .blockEntry :: _ =>
          if afterKey then do
            let (items, builder) ← buildPlainItems handles levels builder
            some (.sequence tag items, builder)
          else absent
      | _ => absent

/-- Builds a node unless the next token shows that it is left out. -/
def buildUnless (handles : Handles) : (levels : Nat) → (ends : Token → Bool) →
    (inBlock afterKey : Bool) → Builder → Option (Node × Builder)
  | 0, _, _, _, _ => none
  | levels + 1, ends, inBlock, afterKey, builder =>
      if nextIs ends builder.tokens then some (empty, builder)
      else build handles levels inBlock afterKey builder

def buildItems (handles : Handles) : (levels : Nat) → Builder → Option (List Node × Builder)
  | 0, _ => none
  | levels + 1, builder =>
      match builder.tokens with
      | .blockEntry :: rest => do
          let (item, builder) ← buildUnless handles levels endsEntry true false (builder.goOn rest)
          let (items, builder) ← buildItems handles levels builder
          some (item :: items, builder)
      | .blockEnd :: rest => some ([], builder.goOn rest)
      | _ => none

/-- Builds the entries of a list whose dashes stand below a key. -/
def buildPlainItems (handles : Handles) : (levels : Nat) → Builder → Option (List Node × Builder)
  | 0, _ => none
  | levels + 1, builder =>
      match builder.tokens with
      | .blockEntry :: rest => do
          let (item, builder) ←
            buildUnless handles levels endsPlainEntry true false (builder.goOn rest)
          let (items, builder) ← buildPlainItems handles levels builder
          some (item :: items, builder)
      | _ => some ([], builder)

def buildPairs (handles : Handles) : (levels : Nat) → Builder →
    Option (List (Node × Node) × Builder)
  | 0, _ => none
  | levels + 1, builder =>
      match builder.tokens with
      | .key :: rest => do
          let (key, builder) ← buildUnless handles levels endsPair true true (builder.goOn rest)
          let (value, builder) ← buildValue handles levels endsPair true builder
          let (pairs, builder) ← buildPairs handles levels builder
          some ((key, value) :: pairs, builder)
      | .blockEnd :: rest => some ([], builder.goOn rest)
      | _ => none

/-- Builds the value of a key, which may be left out. -/
def buildValue (handles : Handles) : (levels : Nat) → (ends : Token → Bool) → (inBlock : Bool) →
    Builder → Option (Node × Builder)
  | 0, _, _, _ => none
  | levels + 1, ends, inBlock, builder =>
      match builder.tokens with
      | .value :: rest => buildUnless handles levels ends inBlock inBlock (builder.goOn rest)
      | _ => some (empty, builder)

def buildFlowItems (handles : Handles) : (levels : Nat) → (first : Bool) → Builder →
    Option (List Node × Builder)
  | 0, _, _ => none
  | levels + 1, first, builder =>
      match first, builder.tokens with
      | _, .flowSequenceEnd :: rest => some ([], builder.goOn rest)
      | false, .flowEntry :: .flowSequenceEnd :: rest => some ([], builder.goOn rest)
      | false, .flowEntry :: rest => buildFlowItem handles levels (builder.goOn rest)
      | false, _ => none
      | true, _ => buildFlowItem handles levels builder

/-- Builds an entry of a flow list, which may be a single pair, and the entries after it. -/
def buildFlowItem (handles : Handles) : (levels : Nat) → Builder → Option (List Node × Builder)
  | 0, _ => none
  | levels + 1, builder =>
      match builder.tokens with
      | .key :: rest => do
          let builder := builder.goOn rest
          let (key, builder) ←
            if nextIs endsFlowItem rest then some (empty, builder.goOn (rest.drop 1))
            else build handles levels false false builder
          let (value, builder) ← buildValue handles levels endsFlowItem false builder
          let (items, builder) ← buildFlowItems handles levels false builder
          some (.mapping none [(key, value)] :: items, builder)
      | _ => do
          let (item, builder) ← build handles levels false false builder
          let (items, builder) ← buildFlowItems handles levels false builder
          some (item :: items, builder)

def buildFlowPairs (handles : Handles) : (levels : Nat) → (first : Bool) → Builder →
    Option (List (Node × Node) × Builder)
  | 0, _, _ => none
  | levels + 1, first, builder =>
      match first, builder.tokens with
      | _, .flowMappingEnd :: rest => some ([], builder.goOn rest)
      | false, .flowEntry :: .flowMappingEnd :: rest => some ([], builder.goOn rest)
      | false, .flowEntry :: rest => buildFlowPair handles levels (builder.goOn rest)
      | false, _ => none
      | true, _ => buildFlowPair handles levels builder

/-- Builds a pair of a flow mapping, whose value may be left out, and the pairs after it. -/
def buildFlowPair (handles : Handles) : (levels : Nat) → Builder →
    Option (List (Node × Node) × Builder)
  | 0, _ => none
  | levels + 1, builder =>
      match builder.tokens with
      | .key :: rest => do
          let (key, builder) ←
            buildUnless handles levels endsFlowPair false false (builder.goOn rest)
          let (value, builder) ← buildValue handles levels endsFlowPair false builder
          let (pairs, builder) ← buildFlowPairs handles levels false builder
          some ((key, value) :: pairs, builder)
      | _ => do
          let (key, builder) ← build handles levels false false builder
          let (pairs, builder) ← buildFlowPairs handles levels false builder
          some ((key, empty) :: pairs, builder)

end

/-- What the directives before a document say. -/
structure Directives where
  version : Option (Nat × Nat) := none
  handles : Handles := []

/-- Reads the directives before a document. Each may be given once, and versions other than 1.1 and
1.2 are not understood. -/
def readDirectives (directives : Directives) : List Token → Option (Directives × List Token)
  | .version major minor :: rest =>
      if directives.version.isNone && major == 1 && (minor == 1 || minor == 2) then
        readDirectives { directives with version := some (major, minor) } rest
      else none
  | .tagHandle handle start :: rest =>
      if (directives.handles.lookup handle).isSome then none
      else readDirectives { directives with handles := (handle, start) :: directives.handles } rest
  | rest => some (directives, rest)

/-- A document has no content at the token. -/
def endsDocument : Token → Bool
  | .version .. | .tagHandle .. | .documentStart | .documentEnd => true
  | _ => false

/-- A document starts with directives or its mark at the token. -/
def startsDocument : Token → Bool
  | .version .. | .tagHandle .. | .documentStart => true
  | _ => false

/-- Nothing but marks of an end is left. -/
def onlyEnds (tokens : List Token) : Bool := tokens.all (· == .documentEnd)

/-- The document that tokens write, if they write one and no more. -/
def ofTokens? (tokens : List Token) : Option Node := do
  let levels := 4 * tokens.length + 4
  let (node, builder) ←
    if tokens.isEmpty then some (empty, { tokens := [] })
    else if nextIs startsDocument tokens then do
      let (directives, rest) ← readDirectives {} tokens
      match rest with
      | .documentStart :: rest =>
          let handles := directives.handles ++ usualHandles
          buildUnless handles levels endsDocument true false { tokens := rest }
      | _ => none
    else build usualHandles levels true false { tokens }
  if onlyEnds builder.tokens then some node else none

def ofText? (text : List Char) : Option Node := (Token.ofText? text).bind ofTokens?

end Node

end TilePyramid.Yaml
