import Inliner.Data.Toml.Scalar

/-!
Documents of the configuration language: keys with values, in tables that are opened by headers,
by dotted keys or in braces.
-/

namespace Inliner.Data.Toml

/-! ## Tables that are being filled -/

/-- How a table came to be: by a header of its own, by the header of a table inside it, or by a
dotted key. -/
inductive Origin where
  | header
  | implied
  | dotted
deriving DecidableEq, Repr

inductive Entry where
  | value (value : Value)
  | table (origin : Origin) (fields : List (String × Entry))
  | tables (elements : List (List (String × Entry)))
deriving Inhabited

/-- The fields of a table that is being filled. -/
abbrev Fields := List (String × Entry)

mutual

def Entry.toValue : Entry → Value
  | .value value => value
  | .table _ fields => .table (fieldValues fields)
  | .tables elements => .array (elementValues elements)

def fieldValues : List (String × Entry) → List (String × Value)
  | [] => []
  | (key, entry) :: fields => (key, entry.toValue) :: fieldValues fields

def elementValues : List (List (String × Entry)) → List Value
  | [] => []
  | fields :: elements => .table (fieldValues fields) :: elementValues elements

end

/-- Fields with the entry of one key changed; a new key comes last. -/
def change (key : String) (edit : Option Entry → Option Entry) : Fields → Option Fields
  | [] => (edit none).map fun entry => [(key, entry)]
  | (other, entry) :: fields =>
      if other = key then
        (edit (some entry)).map fun edited => (other, edited) :: fields
      else
        (change key edit fields).map ((other, entry) :: ·)

/-- Fields with the table at a path of headers changed; in a sequence of tables the last one is
meant. -/
def within (edit : Fields → Option Fields) : List String → Fields → Option Fields
  | [], fields => edit fields
  | key :: path, fields =>
      change key (fun entry =>
        match entry with
        | none => (within edit path []).map (.table .implied)
        | some (.table origin inner) => (within edit path inner).map (.table origin)
        | some (.tables elements) =>
            match elements.getLast? with
            | some last => (within edit path last).map fun edited =>
                .tables (elements.dropLast ++ [edited])
            | none => none
        | some (.value _) => none) fields

def insert (value : Value) : List String → Fields → Option Fields
  | [], _ => none
  | [key], fields =>
      change key (fun entry => if entry.isNone then some (.value value) else none) fields
  | key :: next :: path, fields =>
      change key (fun entry =>
        match entry with
        | none => (insert value (next :: path) []).map (.table .dotted)
        | some (.table .dotted inner) =>
            (insert value (next :: path) inner).map (.table .dotted)
        | some (.table .implied inner) =>
            (insert value (next :: path) inner).map (.table .implied)
        | _ => none) fields

def openTable (key : String) : Fields → Option Fields :=
  change key fun entry =>
    match entry with
    | none => some (.table .header [])
    | some (.table .implied inner) => some (.table .header inner)
    | _ => none

def openElement (key : String) : Fields → Option Fields :=
  change key fun entry =>
    match entry with
    | none => some (.tables [[]])
    | some (.tables elements) => some (.tables (elements ++ [[]]))
    | _ => none

/-! ## Reading -/

/-- A reader: it gives a result and what is left, or fails. -/
abbrev Reader (α : Type) := StateT Text Option α

namespace Reader

def fail {α : Type} : Reader α :=
  fun _ => none

def skipWhile (isSkipped : Char → Bool) : Reader Unit :=
  modify (·.dropWhile isSkipped)

def gap : Reader Unit :=
  skipWhile fun character => character == ' ' || character == '\t'

def char? (character : Char) : Reader Bool := do
  match ← get with
  | first :: rest =>
      if first = character then
        set rest
        return true
      else
        return false
  | [] => return false

def char (character : Char) : Reader Unit := do
  if ← char? character then return else fail

/-- Repeats a reader on a state until it gives its final state, at most `fuel` times. -/
def iterate {σ : Type} (step : σ → Reader (σ ⊕ σ)) : Nat → σ → Reader σ
  | 0, _ => fail
  | fuel + 1, state => do
      match ← step state with
      | .inl next => iterate step fuel next
      | .inr final => return final

/-- Repeats a reader that reads at least one character each time. -/
def loop {σ : Type} (state : σ) (step : σ → Reader (σ ⊕ σ)) : Reader σ := do
  iterate step ((← get).length + 2) state

end Reader

open Reader

def comment : Reader Unit := do
  if ← char? '#' then
    let text := (← get).takeWhile (· ≠ '\n')
    let written := if text.getLast? = some '\r' then text.dropLast else text
    if written.any isForbidden then fail else modify (·.drop written.length)

def lineBreak? : Reader Bool := do
  match ← get with
  | '\n' :: rest =>
      set rest
      return true
  | '\r' :: '\n' :: rest =>
      set rest
      return true
  | _ => return false

def blanks : Reader Unit :=
  loop () fun _ => do
    gap
    comment
    if ← lineBreak? then return .inl () else return .inr ()

def lineEnd : Reader Unit := do
  gap
  comment
  if (← get).isEmpty then return else if ← lineBreak? then return else fail

/-- Whether a character may stand in a key without quotation marks. -/
def isKeyChar (character : Char) : Bool :=
  character.isAlphanum || character == '_' || character == '-'

def simpleKey : Reader String := do
  let text ← get
  match text with
  | '"' :: rest =>
      match basicBody 0 rest with
      | some (key, after) =>
          set after
          return String.ofList key
      | none => fail
  | '\'' :: rest =>
      match literalBody rest with
      | some (key, after) =>
          set after
          return String.ofList key
      | none => fail
  | _ =>
      let key := text.takeWhile isKeyChar
      if key.isEmpty then
        fail
      else
        set (text.drop key.length)
        return String.ofList key

def dottedKey : Reader (List String) := do
  let first ← simpleKey
  let keys ← loop [first] fun keys => do
    gap
    if ← char? '.' then
      gap
      return .inl ((← simpleKey) :: keys)
    else
      return .inr keys
  return keys.reverse

/-- Applies a change that may be refused. -/
def changed (fields : Option Fields) : Reader Fields :=
  match fields with
  | some result => return result
  | none => fail

def keyValue (value : Reader Value) : Reader (List String × Value) := do
  let key ← dottedKey
  gap
  char '='
  gap
  return (key, ← value)

def arrayBody (value : Reader Value) : Reader Value := do
  let items ← loop [] fun items => do
    blanks
    if ← char? ']' then
      return .inr items
    let item ← value
    blanks
    if ← char? ',' then
      return .inl (item :: items)
    else
      char ']'
      return .inr (item :: items)
  return .array items.reverse

def inlineBody (value : Reader Value) : Reader Value := do
  gap
  if ← char? '\x7d' then
    return .table []
  let fields ← loop [] fun fields => do
    gap
    let (key, item) ← keyValue value
    let fields ← changed (insert item key fields)
    gap
    if ← char? ',' then
      return .inl fields
    else
      char '\x7d'
      return .inr fields
  return .table (fieldValues fields)

def value : Nat → Reader Value
  | 0 => fail
  | depth + 1 => do
      let text ← get
      match text with
      | '[' :: rest =>
          set rest
          arrayBody (value depth)
      | '\x7b' :: rest =>
          set rest
          inlineBody (value depth)
      | '"' :: _ | '\'' :: _ =>
          match string? text with
          | some (string, after) =>
              set after
              return .string (String.ofList string)
          | none => fail
      | _ =>
          let word := wordAt text
          match wordValue? word with
          | some result =>
              set (text.drop word.length)
              return result
          | none => fail

/-- What has been read of a document: its fields, and the path of the open table. -/
structure Draft where
  fields : Fields
  path : List String

/-- A header, after its first bracket. -/
def header (draft : Draft) : Reader Draft := do
  let element ← char? '['
  gap
  let path ← dottedKey
  gap
  char ']'
  if element then
    char ']'
  match path.getLast? with
  | none => fail
  | some key =>
      let edit := if element then openElement key else openTable key
      return ⟨← changed (within edit path.dropLast draft.fields), path⟩

/-- A line of a document with its line break; the text must not be empty. -/
def line (draft : Draft) : Reader Draft := do
  gap
  match ← get with
  | '[' :: rest =>
      set rest
      let draft ← header draft
      lineEnd
      return draft
  | [] | '#' :: _ | '\n' :: _ | '\r' :: _ =>
      lineEnd
      return draft
  | text =>
      let (key, item) ← keyValue (value (text.length + 1))
      lineEnd
      return ⟨← changed (within (insert item key) draft.path draft.fields), draft.path⟩

def document : Reader Draft :=
  loop ⟨[], []⟩ fun draft => do
    if (← get).isEmpty then return .inr draft else return .inl (← line draft)

def parse? (text : Text) : Option (List (String × Value)) :=
  let text := if text.head? = some '\uFEFF' then text.tail else text
  (document text).map fun (draft, _) => fieldValues draft.fields

end Inliner.Data.Toml
