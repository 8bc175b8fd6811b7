import ContainerAudit.Json.Token

/-!
# JSON texts as trees

`parse` arranges the tokens of a JSON text as a tree.  It never fails: a fault becomes a node at
the place where a reader who follows the text would meet it, so reading a tree from left to
right meets the problems of a text in their order.  Open arrays and objects wait on a stack, so
there is no limit on nesting.
-/

namespace ContainerAudit.Json

/-- A JSON text from its start to its end or its first fault. -/
inductive Tree where
  | null
  | boolean (value : Bool)
  | number (numeral : Numeral)
  /-- A string, with no content if it stands for no text. -/
  | text (content : Option String)
  /-- An array; `fault` is the fault that stands in the place of its closing bracket. -/
  | array (items : List Tree) (fault : Option Break)
  /-- An object, with its members in the order of the text. -/
  | object (members : List (Option String × Tree)) (fault : Option Break)
  /-- A fault where a value should stand. -/
  | broken (fault : Break)

/-- An array or object that is not closed yet; what it holds so far runs backwards. -/
inductive Frame where
  | array (items : List Tree)
  | object (members : List (Option String × Tree))
  /-- An object in the middle of a member whose name has been read. -/
  | member (members : List (Option String × Tree)) (name : Option String)

/-- What may come next. -/
inductive Expected where
  | value
  /-- The first item of an array, or its end. -/
  | itemOrEnd
  /-- The first member of an object, or its end. -/
  | nameOrEnd
  /-- The name of a further member. -/
  | name
  | colon
  /-- A comma, or the end of the innermost array or object. -/
  | commaOrEnd

/-- Puts a last value into the open frames.  A fault stopped the reader inside it, so the ends
    of the frames are never reached. -/
def enclose : List Frame → Tree → Tree
  | [], tree => tree
  | .array items :: stack, tree => enclose stack (.array ((tree :: items).reverse) none)
  | .object members :: stack, _ => enclose stack (.object members.reverse none)
  | .member members name :: stack, tree =>
    enclose stack (.object (((name, tree) :: members).reverse) none)

/-- The tree of a text that stops with a fault. -/
def abandon (stack : List Frame) (expected : Expected) (fault : Break) : Tree :=
  match expected, stack with
  | .commaOrEnd, .array items :: stack => enclose stack (.array items.reverse (some fault))
  | .commaOrEnd, .object members :: stack
  | .nameOrEnd, .object members :: stack
  | .name, .object members :: stack => enclose stack (.object members.reverse (some fault))
  | _, stack => enclose stack (.broken fault)

/-- The stack after a value is complete, unless it is the value of the whole text. -/
def complete (tree : Tree) : List Frame → Option (List Frame)
  | [] => none
  | .array items :: stack => some (.array (tree :: items) :: stack)
  | .object members :: stack => some (.object members :: stack)
  | .member members name :: stack => some (.object ((name, tree) :: members) :: stack)

/-- What one token does to the reader of a tree. -/
inductive Progress where
  | next (stack : List Frame) (expected : Expected)
  /-- A value is complete. -/
  | value (tree : Tree) (stack : List Frame)
  | fault (fault : Break)

/-- One token where a value is expected. -/
def stepValue (stack : List Frame) : Token → Progress
  | .null => .value .null stack
  | .boolean b => .value (.boolean b) stack
  | .number n => .value (.number n) stack
  | .text content => .value (.text content) stack
  | .openArray => .next (.array [] :: stack) .itemOrEnd
  | .openObject => .next (.object [] :: stack) .nameOrEnd
  | .brokenText fault | .brokenScalar fault => .fault fault
  | .closeArray | .closeObject | .comma | .colon | .stray => .fault (.same .malformed)

/-- One token where the name of a member is expected. -/
def stepName (members : List (Option String × Tree)) (stack : List Frame) : Token → Progress
  | .text name => .next (.member members name :: stack) .colon
  | .brokenText fault => .fault fault
  | _ => .fault (.same .malformed)

/-- One token. -/
def stepTree (stack : List Frame) (expected : Expected) (token : Token) : Progress :=
  match expected, stack, token with
  | .value, _, _ => stepValue stack token
  | .itemOrEnd, .array _ :: outer, .closeArray => .value (.array [] none) outer
  | .itemOrEnd, _, _ => stepValue stack token
  | .nameOrEnd, .object members :: outer, .closeObject =>
    .value (.object members.reverse none) outer
  | .nameOrEnd, .object members :: outer, _ => stepName members outer token
  | .name, .object members :: outer, _ => stepName members outer token
  | .colon, _, .colon => .next stack .value
  | .commaOrEnd, .array _ :: _, .comma => .next stack .value
  | .commaOrEnd, .array items :: outer, .closeArray => .value (.array items.reverse none) outer
  | .commaOrEnd, .object _ :: _, .comma => .next stack .name
  | .commaOrEnd, .object members :: outer, .closeObject =>
    .value (.object members.reverse none) outer
  | _, _, _ => .fault (.same .malformed)

/-- The tree that tokens make from an open stack on, with the tokens after its end. -/
def grow (stack : List Frame) (expected : Expected) : List Token → Tree × List Token
  | [] => (abandon stack expected (.same .truncated), [])
  | token :: rest =>
    match stepTree stack expected token with
    | .next stack expected => grow stack expected rest
    | .fault fault => (abandon stack expected fault, [])
    | .value tree stack =>
      match complete tree stack with
      | none => (tree, rest)
      | some stack => grow stack .commaOrEnd rest

/-- A whole JSON text: its value, and whether something stands after it. -/
structure Parsed where
  tree : Tree
  trailing : Bool

/-- The tree of a JSON text. -/
def parse (bytes : Text.Bytes) : Parsed :=
  let (tree, rest) := grow [] .value (tokens bytes)
  ⟨tree, !rest.isEmpty⟩

mutual

/-- Skips a value: succeeds exactly if the grammar of JSON holds in it. -/
def Tree.skip : Tree → Except Fault Unit
  | .null | .boolean _ | .number _ | .text _ => .ok ()
  | .array items fault => do
    skipItems items
    fault.elim (.ok ()) fun fault => .error fault.skipped
  | .object members fault => do
    skipMembers members
    fault.elim (.ok ()) fun fault => .error fault.skipped
  | .broken fault => .error fault.skipped

/-- Skips the items of an array. -/
def skipItems : List Tree → Except Fault Unit
  | [] => .ok ()
  | item :: rest => do
    item.skip
    skipItems rest

/-- Skips the members of an object, whatever their names hold. -/
def skipMembers : List (Option String × Tree) → Except Fault Unit
  | [] => .ok ()
  | (_, value) :: rest => do
    value.skip
    skipMembers rest

end

end ContainerAudit.Json
