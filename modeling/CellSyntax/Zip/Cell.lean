/-
**The tree of a cell.**

From what a parser reports to the tree of the cell: markers that stand for no text are stripped,
text that no token covers is filled in when the source is known, and the tokens are zipped with the
syntax tree. Without a syntax tree the root owns every token.

* `zipOutput_of_ast`: with a syntax tree, zipping depends on whether the source is known;
* `zipSource_blank`: a blank source has the empty tree, whatever the tokens.
-/

import CellSyntax.Trivia
import CellSyntax.Zip.Zipper

namespace CellSyntax

/-- The tokens without the trailing end markers and the leading encoding marker. -/
def stripMarkers (config : TokenConfig) (tokens : List Token) : List Token :=
  let unended := (tokens.reverse.dropWhile fun token => token.kind == config.endMarker).reverse
  match unended with
  | [] => []
  | first :: rest => if first.kind = config.encodingMarker then rest else first :: rest

/-- Zip tokens that are stripped of markers; the tree is empty if all of them are blank. -/
def zipStripped (config : TokenConfig) (ast : AstNode) (tokens : List Token) :
    Except BracketMismatch CellTree :=
  if tokens.all fun token => Text.isBlank token.literal then .ok .empty
  else
    match Zip.zipModule (.ofConfig config) ast tokens with
    | .error mismatch => .error mismatch
    | .ok root => .ok (.tree root)

/-- Zip a token stream with a module node. -/
def zipTokens (config : TokenConfig) (ast : AstNode) (tokens : List Token) :
    Except BracketMismatch CellTree :=
  zipStripped config ast (stripMarkers config tokens)

/-- Zip a token stream with a module node, text of `source` that no token covers being filled
in. -/
def zipSource (config : TokenConfig) (source : String) (ast : AstNode) (tokens : List Token) :
    Except BracketMismatch CellTree :=
  if Text.isBlank source then .ok .empty
  else zipStripped config ast (fillGaps source config.triviaKind (stripMarkers config tokens))

/-- The tree of one node for an answer without a syntax tree. -/
def flatTree (config : TokenConfig) (source : Option String) (tokens : List Token) : CellTree :=
  let stripped := stripMarkers config tokens
  match source with
  | none => .flat config.rootKind stripped
  | some text =>
    if Text.isBlank text then .empty
    else .flat config.rootKind (fillGaps text config.triviaKind stripped)

/-- The tree of a cell, from what the parser reports for it. -/
def zipOutput (config : TokenConfig) (output : ParseOutput) : Except BracketMismatch CellTree :=
  match output.ast, output.source with
  | some ast, some source => zipSource config source ast output.tokens
  | some ast, none => zipTokens config ast output.tokens
  | none, source => .ok (flatTree config source output.tokens)

theorem zipOutput_of_ast (config : TokenConfig) (source : Option String) (tokens : List Token)
    (ast : AstNode) :
    zipOutput config ⟨source, tokens, some ast⟩ =
      match source with
      | some text => zipSource config text ast tokens
      | none => zipTokens config ast tokens := by
  cases source <;> rfl

theorem zipSource_blank {config : TokenConfig} {source : String} (ast : AstNode)
    (tokens : List Token) (blank : Text.isBlank source = true) :
    zipSource config source ast tokens = .ok .empty :=
  if_pos blank

end CellSyntax
