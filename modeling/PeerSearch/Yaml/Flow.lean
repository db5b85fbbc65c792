import PeerSearch.Yaml.Cursor

/-!
# PeerSearch.Yaml.Flow -- collections between brackets

Lists and sections may be written between brackets, where lines and columns do not count. A comma
may stand behind the last item, and a name without a value has an absent one.
-/

namespace PeerSearch.Yaml

/-- What follows the colon at the start of a text. -/
def afterColon? (cs : List Char) : Option (List Char) :=
  match skip cs with
  | ':' :: rest => some rest
  | _ => none

/-- What follows an item: the bracket that closes the collection, or more behind a comma. -/
inductive FlowEnd where
  | closed (rest : List Char)
  | more (rest : List Char)
  deriving DecidableEq, Repr

/-- The end of an item in a collection that a bracket closes. -/
def flowEnd? (close : Char) (cs : List Char) : Option FlowEnd :=
  match skip cs with
  | [] => none
  | c :: rest =>
    if c == close then some (.closed rest)
    else if c == ',' then some (.more rest)
    else none

mutual

/-- A value between brackets, and what follows; `fuel` bounds the number of steps. -/
def readFlow? : Nat → List Char → Option (SettingValue × List Char)
  | 0, _ => none
  | fuel + 1, cs =>
    match skip cs with
    | '[' :: rest => (readFlowItems? fuel rest).map fun (items, rest) => (.list items, rest)
    | '\x7b' :: rest => (readFlowMembers? fuel [] rest).map fun (s, rest) => (.part s, rest)
    | cs =>
      match readQuoted? cs with
      | some (text, rest) => some (.text (String.ofList text), rest)
      | none =>
        if startsWord true cs then
          let (word, rest) := spanWord true 0 cs.length cs
          (wordValue? word).map (·, rest)
        else if cs.head?.any fun c => c == ',' || c == ']' || c == '\x7d' then some (.absent, cs)
        else none

/-- An item of a list: a value, or a section of one member without its brackets. -/
def readFlowItem? : Nat → List Char → Option (SettingValue × List Char)
  | 0, _ => none
  | fuel + 1, cs =>
    let member? := do
      let (name, rest) ← readName? true (skip cs)
      return (name, ← afterColon? rest)
    match member? with
    | some (name, rest) => (readFlow? fuel rest).map fun (v, rest) => (.part [(name, v)], rest)
    | none => readFlow? fuel cs

/-- The items of a list after its bracket, and what follows the closing one. -/
def readFlowItems? : Nat → List Char → Option (List SettingValue × List Char)
  | 0, _ => none
  | fuel + 1, cs =>
    match skip cs with
    | ']' :: rest => some ([], rest)
    | ',' :: _ => none
    | cs => do
      let (item, rest) ← readFlowItem? fuel cs
      match ← flowEnd? ']' rest with
      | .closed rest => return ([item], rest)
      | .more rest =>
        let (items, rest) ← readFlowItems? fuel rest
        return (item :: items, rest)

/-- The members of a section after its brace, behind some, and what follows the closing one. -/
def readFlowMembers? : Nat → SettingSection → List Char → Option (SettingSection × List Char)
  | 0, _, _ => none
  | fuel + 1, base, cs =>
    match skip cs with
    | '\x7d' :: rest => some (base, rest)
    | cs => do
      let (name, rest) ← readName? true cs
      let (v, rest) ← match afterColon? rest with
        | some rest => readFlow? fuel rest
        | none => some (.absent, rest)
      if (base.lookup name).isSome then none
      else
        match ← flowEnd? '\x7d' rest with
        | .closed rest => return (base ++ [(name, v)], rest)
        | .more rest => readFlowMembers? fuel (base ++ [(name, v)]) rest

end

/-- A collection between brackets that starts the text, and what follows it. -/
def readBracketed? (cs : List Char) : Option (SettingValue × List Char) :=
  readFlow? (3 * cs.length + 3) cs

end PeerSearch.Yaml
