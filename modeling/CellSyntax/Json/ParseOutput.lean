/-
**Parser answers as JSON.**

A parser answers with an object that has the source, the tokens and the syntax tree, all of them
optional, or with `null` or `[]` for a blank cell. Such an object, and a syntax tree node, may be
an array of its fields in their order as well; a token may not.

* `Token.ofJson?_toJson`, `AstNode.ofJson?_toJson`, `ParseOutput.ofJson?_toJson`: what is written
  is read back.
-/

import CellSyntax.Json.Position
import CellSyntax.ParseOutput

namespace CellSyntax

namespace Token

/-- A token written as JSON. -/
def toJson (token : Token) : Json :=
  .object [("type", .string token.kind), ("start", token.range.start.toJson),
    ("end", token.range.stop.toJson), ("literal", .string token.literal)]

/-- The token that a value stands for. -/
def ofJson? : Json → Option Token
  | .object members => do
    let kind ← (← Json.member? "type" members).asString?
    let start ← Position.ofJson? (← Json.member? "start" members)
    let stop ← Position.ofJson? (← Json.member? "end" members)
    let literal ← (← Json.member? "literal" members).asString?
    return ⟨kind, ⟨start, stop⟩, literal⟩
  | _ => none

theorem ofJson?_toJson (token : Token) : ofJson? token.toJson = some token := rfl

/-- The tokens that a value stands for. -/
def listOfJson? : Json → Option (List Token)
  | .array items => items.mapM ofJson?
  | _ => none

end Token

namespace AstNode

mutual

/-- A syntax tree node written as JSON; an absent anchor and an empty list of children are left
out. -/
def toJson : AstNode → Json
  | ⟨kind, anchor, children⟩ =>
    .object ([("type", .string kind)] ++
      (match anchor with
        | none => []
        | some position => [("anchor", position.toJson)]) ++
      match children with
        | [] => []
        | node :: rest => [("children", .array (toJson node :: listToJson rest))])

/-- Syntax tree nodes written as JSON. -/
def listToJson : List AstNode → List Json
  | [] => []
  | node :: rest => toJson node :: listToJson rest

end

/-- The anchor that a value stands for, `null` being none. -/
def anchorOfJson? : Json → Option (Option Position)
  | .null => some none
  | json => (Position.ofJson? json).map some

/-- The anchor that the members of an object give. -/
def anchorIn? (members : List (String × Json)) : Option (Option Position) :=
  match Json.member? "anchor" members with
  | none => some none
  | some json => anchorOfJson? json

mutual

/-- The syntax tree node that a value stands for. -/
def ofJson? : Json → Option AstNode
  | .array [kind] => do return ⟨← kind.asString?, none, []⟩
  | .array [kind, anchor] => do return ⟨← kind.asString?, ← anchorOfJson? anchor, []⟩
  | .array [kind, anchor, children] => do
    return ⟨← kind.asString?, ← anchorOfJson? anchor, ← listOfJson? children⟩
  | .object members => do
    let kind ← (← Json.member? "type" members).asString?
    let anchor ← anchorIn? members
    let children ← (childrenIn? members).getD (some [])
    return ⟨kind, anchor, children⟩
  | _ => none

/-- The syntax tree nodes that a value stands for. -/
def listOfJson? : Json → Option (List AstNode)
  | .array items => itemsOfJson? items
  | _ => none

/-- The syntax tree nodes that values stand for. -/
def itemsOfJson? : List Json → Option (List AstNode)
  | [] => some []
  | json :: rest =>
    match ofJson? json, itemsOfJson? rest with
    | some node, some nodes => some (node :: nodes)
    | _, _ => none

/-- What the last member called `children` stands for, if there is one. -/
def childrenIn? : List (String × Json) → Option (Option (List AstNode))
  | [] => none
  | (key, json) :: rest =>
    match childrenIn? rest with
    | some found => some found
    | none => if key = "children" then some (listOfJson? json) else none

end

theorem anchorOfJson?_toJson (position : Position) :
    anchorOfJson? position.toJson = some (some position) := rfl

theorem toJson_object (node : AstNode) : ∃ members, node.toJson = .object members := by
  rcases node with ⟨kind, anchor, children⟩
  cases children <;> exact ⟨_, rfl⟩

mutual

theorem ofJson?_toJson : ∀ node : AstNode, ofJson? node.toJson = some node
  | ⟨kind, none, []⟩ => rfl
  | ⟨kind, some position, []⟩ => rfl
  | ⟨kind, none, child :: rest⟩ => by
    have items := itemsOfJson?_listToJson (child :: rest)
    rw [listToJson] at items
    simp [toJson, ofJson?, childrenIn?, listOfJson?, items, Json.member?, Json.asString?, anchorIn?]
  | ⟨kind, some position, child :: rest⟩ => by
    have items := itemsOfJson?_listToJson (child :: rest)
    rw [listToJson] at items
    simp [toJson, ofJson?, childrenIn?, listOfJson?, items, Json.member?, Json.asString?, anchorIn?,
      anchorOfJson?_toJson]

theorem itemsOfJson?_listToJson :
    ∀ nodes : List AstNode, itemsOfJson? (listToJson nodes) = some nodes
  | [] => rfl
  | node :: rest => by
    rw [listToJson, itemsOfJson?, ofJson?_toJson node, itemsOfJson?_listToJson rest]

end

end AstNode

namespace ParseOutput

/-- A parser answer written as JSON; an absent source is left out. -/
def toJson (output : ParseOutput) : Json :=
  .object ((match output.source with
      | none => []
      | some text => [("source", .string text)]) ++
    [("tokens", .array (output.tokens.map Token.toJson)),
      ("ast", Json.nullable AstNode.toJson output.ast)])

/-- The source that a value stands for, `null` being none. -/
def sourceOfJson? : Json → Option (Option String)
  | .null => some none
  | json => json.asString?.map some

/-- The syntax tree that a value stands for, `null` being none. -/
def astOfJson? : Json → Option (Option AstNode)
  | .null => some none
  | json => (AstNode.ofJson? json).map some

/-- The parser answer that a value stands for. -/
def ofJson? : Json → Option ParseOutput
  | .array [] => some ⟨none, [], none⟩
  | .array [source] => do return ⟨← sourceOfJson? source, [], none⟩
  | .array [source, tokens] => do
    return ⟨← sourceOfJson? source, ← Token.listOfJson? tokens, none⟩
  | .array [source, tokens, ast] => do
    return ⟨← sourceOfJson? source, ← Token.listOfJson? tokens, ← astOfJson? ast⟩
  | .object members => do
    let source ← ((Json.member? "source" members).map sourceOfJson?).getD (some none)
    let tokens ← ((Json.member? "tokens" members).map Token.listOfJson?).getD (some [])
    let ast ← ((Json.member? "ast" members).map astOfJson?).getD (some none)
    return ⟨source, tokens, ast⟩
  | _ => none

/-- The parser answer that a value stands for, `null` and the empty array being a blank cell. -/
def ofAnswer? : Json → Option (Option ParseOutput)
  | .null => some none
  | .array [] => some none
  | json => (ofJson? json).map some

/-- The parser answer that a text holds. -/
def read (text : String) : Except Json.Fault (Option ParseOutput) :=
  match Json.read text with
  | none => .error .malformed
  | some json =>
    match ofAnswer? json with
    | none => .error .mismatch
    | some answer => .ok answer

theorem astOfJson?_nullable (ast : Option AstNode) :
    astOfJson? (Json.nullable AstNode.toJson ast) = some ast := by
  cases ast with
  | none => rfl
  | some node =>
    obtain ⟨members, object⟩ := AstNode.toJson_object node
    have written := AstNode.ofJson?_toJson node
    rw [object] at written
    simp [Json.nullable, object, astOfJson?, written]

theorem listOfJson?_map_toJson (tokens : List Token) :
    Token.listOfJson? (.array (tokens.map Token.toJson)) = some tokens := by
  show (tokens.map Token.toJson).mapM Token.ofJson? = some tokens
  induction tokens with
  | nil => rfl
  | cons token rest ih =>
    rw [List.map_cons, List.mapM_cons, ih, Token.ofJson?_toJson]
    rfl

theorem ofJson?_toJson (output : ParseOutput) : ofJson? output.toJson = some output := by
  rcases output with ⟨source, tokens, ast⟩
  cases source with
  | none =>
    simp [toJson, ofJson?, Json.member?, listOfJson?_map_toJson, astOfJson?_nullable]
  | some text =>
    simp [toJson, ofJson?, Json.member?, listOfJson?_map_toJson, astOfJson?_nullable,
      sourceOfJson?, Json.asString?]

end ParseOutput

end CellSyntax
