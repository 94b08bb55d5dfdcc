import RecordQuery.Document.Tree
import RecordQuery.Yaml.Token.Lexer

/-!
# Reading YAML text

Of YAML this reads one document of mappings and sequences, in block and in flow style, of
plain and quoted scalars. A sequence that is a key's value need not be indented. What is left
out is a blank value, and every scalar is a text.
-/

namespace RecordQuery.Yaml

open Document (Tree)

/-- What tokens stand for, and the tokens after those. -/
abbrev Parsed (α : Type) := Option (α × List Token)

/-- A member of a mapping, with its name. -/
abbrev Member := Option String × Tree

/-- The name that a key gives; a collection as a key gives none. -/
def nameOf : Tree → Option String
  | .text t => t
  | _ => none

/-- Where a node stands. -/
inductive Place where
  /-- Inside brackets. -/
  | flow
  /-- A document, or an entry of a block sequence. -/
  | block
  /-- A key or a value of a block mapping. -/
  | member
deriving DecidableEq, Repr

/-- Where a value is left out, one of these tokens comes next. -/
def Place.isLeftOut : Place → Token → Bool
  | .flow, t => t = .separator || t = .closeSequence || t = .closeMapping
  | .block, t => t = .entry || t = .key || t = .endBlock
  | .member, t => t = .key || t = .endBlock

mutual

/-- A scalar or a collection. -/
def node? : Nat → Place → List Token → Parsed Tree
  | 0, _, _ => none
  | _ + 1, _, [] => none
  | fuel + 1, place, token :: rest =>
    match token with
    | .text t => some (.text (some t), rest)
    | .openSequence => flowItems? fuel [] rest
    | .openMapping => flowMembers? fuel [] rest
    | .beginMapping => if place = .flow then none else blockMembers? fuel [] rest
    | .beginSequence =>
      if place = .flow then none
      else
        match entries? fuel [] rest with
        | some (items, .endBlock :: rest) => some (.list items, rest)
        | _ => none
    | .entry =>
      if place = .member then
        (entries? fuel [] (token :: rest)).map fun (items, rest) => (.list items, rest)
      else none
    | _ => none

/-- A node, unless it is left out. -/
def value? : Nat → Place → List Token → Parsed Tree
  | 0, _, _ => none
  | fuel + 1, place, tokens =>
    if tokens.head?.any place.isLeftOut then some (.blank, tokens) else node? fuel place tokens

/-- A key, with its value after a colon. -/
def member? : Nat → Place → List Token → Parsed Member
  | 0, _, _ => none
  | fuel + 1, place, tokens =>
    match node? fuel place tokens with
    | some (key, .value :: rest) =>
      (value? fuel place rest).map fun (value, rest) => ((nameOf key, value), rest)
    | _ => none

/-- The entries of a block sequence, given those before, last first. -/
def entries? : Nat → List Tree → List Token → Parsed (List Tree)
  | 0, _, _ => none
  | fuel + 1, items, .entry :: rest =>
    match value? fuel .block rest with
    | some (item, rest) => entries? fuel (item :: items) rest
    | none => none
  | _ + 1, items, tokens => some (items.reverse, tokens)

/-- The members of a block mapping, given those before, last first. -/
def blockMembers? : Nat → List Member → List Token → Parsed Tree
  | 0, _, _ => none
  | fuel + 1, members, .key :: rest =>
    match member? fuel .member rest with
    | some (member, rest) => blockMembers? fuel (member :: members) rest
    | none => none
  | _ + 1, members, .endBlock :: rest => some (.object members.reverse, rest)
  | _ + 1, _, _ => none

/-- The items of a flow sequence, given those before, last first. A member as an item is a
mapping of its own. -/
def flowItems? : Nat → List Tree → List Token → Parsed Tree
  | 0, _, _ => none
  | _ + 1, items, .closeSequence :: rest => some (.list items.reverse, rest)
  | fuel + 1, items, tokens =>
    let item : Parsed Tree :=
      match tokens with
      | .key :: rest =>
        (member? fuel .flow rest).map fun (member, rest) => (Tree.object [member], rest)
      | _ => node? fuel .flow tokens
    match item with
    | some (item, .separator :: rest) => flowItems? fuel (item :: items) rest
    | some (item, .closeSequence :: rest) => some (.list (item :: items).reverse, rest)
    | _ => none

/-- The members of a flow mapping, given those before, last first. A key alone is a member
with its value left out. -/
def flowMembers? : Nat → List Member → List Token → Parsed Tree
  | 0, _, _ => none
  | _ + 1, members, .closeMapping :: rest => some (.object members.reverse, rest)
  | fuel + 1, members, tokens =>
    let member : Parsed Member :=
      match tokens with
      | .key :: rest => member? fuel .flow rest
      | _ => (node? fuel .flow tokens).map fun (key, rest) => ((nameOf key, .blank), rest)
    match member with
    | some (member, .separator :: rest) => flowMembers? fuel (member :: members) rest
    | some (member, .closeMapping :: rest) => some (.object (member :: members).reverse, rest)
    | _ => none

end

/-- The content of a document and the tokens after it. An empty document has a blank one. -/
def content? (fuel : Nat) : List Token → Parsed Tree
  | [] => some (.blank, [])
  | .documentStart :: rest =>
    if rest.head?.all fun t => t = .documentStart || t = .documentEnd then some (.blank, rest)
    else node? fuel .block rest
  | tokens => node? fuel .block tokens

/-- The document tree of a YAML text, after which nothing but end markers may follow. No more
than three steps of the reading stand at one token, so three for each are enough. -/
def tree? (text : String) : Option Tree := do
  let tokens ← tokens? text
  let (tree, rest) ← content? (3 * tokens.length + 3) tokens
  if rest.all (· = .documentEnd) then some tree else none

end RecordQuery.Yaml
