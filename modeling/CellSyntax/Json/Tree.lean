/-
**Trees as JSON.**

A node is written with its type, its ends and its content, tokens and child nodes in source order.

* `Element.toJson_element`: a child node is written as it would be by itself.
-/

import CellSyntax.Json.ParseOutput
import CellSyntax.Repair

namespace CellSyntax

namespace Element

mutual

/-- An element written as JSON. -/
def toJson : Element → Json
  | .token lexeme => lexeme.token.toJson
  | .node kind range content =>
    .object [("type", .string kind), ("start", range.start.toJson), ("end", range.stop.toJson),
      ("content", .array (contentToJson content))]

/-- A content written as JSON. -/
def contentToJson : List Element → List Json
  | [] => []
  | element :: rest => toJson element :: contentToJson rest

end

end Element

/-- A node with everything below it written as JSON. -/
def Node.toJson (node : Node) : Json := node.element.toJson

theorem Element.toJson_element (node : Node) : node.element.toJson = node.toJson := rfl

/-- What is handed back after an edit, written as JSON. -/
def Repair.toJson (repair : Repair) : Json :=
  .object [("type", .string repair.kind), ("range", repair.range.toJson),
    ("text", .string repair.text)]

end CellSyntax
