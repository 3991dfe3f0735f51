/-
  Source/Builder.lean --- the source of a class that registers routes.

  A source is a list of lines, each with a level of indentation and a body.  The bodies do not
  depend on the indentation, and the levels do not depend on any text that is shown.

  The lines are those of a template, in its order.  A line of the template that only opens or closes
  a block is taken out with its line feed and the blanks in front of it, so blocks leave lines or
  nothing:

    * a line that starts with one to five indentations has that level, and other lines have none;
    * what stands under a condition is a list of lines that may be empty: each of the two imports of
      constants, and in `Statement.ofRule` and `paramCalls` each call that a text, a list or a
      format asks for.  A text asks for its call unless it is missing or empty (`Call.ofText?`);
    * inside a line, a base path that is missing or empty leaves `rest()` without argument;
    * the loop over the rules is `statementLines`, and the one over the parameters of a rule puts
      the calls of `paramCalls` one after the other;
    * the loop over the rules starts with an empty line in every pass but the first.  So there is an
      empty line between each two statements and none around them;
    * the last line ends with a line feed, as all others do.
-/
import SwaggerRoutes.Notice
import SwaggerRoutes.Source.Statement

set_option autoImplicit false

namespace SwaggerRoutes.Source

open Route

/-! ## Lines -/

/-- A line of source. -/
structure Line where
  /-- How far it is indented. -/
  level : Nat
  /-- What stands on it after the indentation. -/
  body : String
  deriving DecidableEq, Repr

/-- The text of a line, with the line feed that ends it. -/
def Line.render (indent : String) (l : Line) : String :=
  String.join (List.replicate l.level indent) ++ l.body ++ "\n"

/-- The text of lines. -/
def renderLines (indent : String) (ls : List Line) : String :=
  String.join (ls.map (Line.render indent))

/-! ## Statements -/

/-- The line of a call. -/
def Call.line (c : Call) : Line :=
  ⟨c.level, c.render⟩

/-- The lines of a statement. -/
def Statement.lines (s : Statement) : List Line :=
  ⟨2, "rest" ++ renderArguments (s.base.toList.map .text)⟩ :: s.calls.map Call.line ++
    [⟨s.last.level, s.last.render ++ ";"⟩]

/-- The lines of statements, with an empty line between each two. -/
def statementLines : List Statement → List Line
  | [] => []
  | [s] => s.lines
  | s :: t :: rest => s.lines ++ ⟨0, ""⟩ :: statementLines (t :: rest)

/-! ## Classes -/

/-- What a source needs besides its routes. -/
structure Layout where
  /-- The package of the class. -/
  packageName : String
  /-- The name of the class. -/
  className : String
  /-- What the comment says the routes are for. -/
  title : String
  /-- The base path of all routes. -/
  basePath : Option String
  /-- What one level of indentation is. -/
  indent : String
  deriving DecidableEq, Repr

/-- The generator that sources name as theirs. -/
def generatorName : String := "restdsl-java"

/-- Whether some rule has a parameter. -/
def usesParams (rules : List Rule) : Bool :=
  rules.any fun r => !r.params.isEmpty

/-- Whether some parameter of some rule has a collection format with a constant. -/
def usesFormats (rules : List Rule) : Bool :=
  (rules.flatMap Rule.params).any fun p => (CollectionFormat.ofParam? p).isSome

/-- The imports that rules need. -/
def importLines (rules : List Rule) : List Line :=
  [⟨0, "import javax.annotation.Generated;"⟩,
    ⟨0, "import org.apache.camel.builder.RouteBuilder;"⟩] ++
  (if usesFormats rules then [⟨0, "import org.apache.camel.model.rest.CollectionFormat;"⟩]
    else []) ++
  (if usesParams rules then [⟨0, "import org.apache.camel.model.rest.RestParamType;"⟩] else [])

/-- The lines of the source for rules. -/
def sourceLines (l : Layout) (rules : List Rule) : List Line :=
  [⟨0, "package " ++ l.packageName ++ ";"⟩, ⟨0, ""⟩] ++
  importLines rules ++
  [⟨0, ""⟩,
    ⟨0, "@Generated(" ++ literal generatorName ++ ")"⟩,
    ⟨0, "public final class " ++ l.className ++ " extends RouteBuilder \x7b"⟩,
    ⟨0, ""⟩,
    ⟨1, "/**"⟩,
    ⟨1, " * Defines Apache Camel routes for REST " ++ comment l.title ++ "."⟩,
    ⟨1, " */"⟩,
    ⟨1, "@Override"⟩,
    ⟨1, "public void configure() throws Exception \x7b"⟩] ++
  statementLines (rules.map (.ofRule l.basePath)) ++
  [⟨1, "\x7d"⟩, ⟨0, "\x7d"⟩]

/-- The source for rules. -/
def emit (l : Layout) (rules : List Rule) : String :=
  renderLines l.indent (sourceLines l rules)

/-! ## Notices -/

/-- The notice that a parameter asks for a collection format without a constant. -/
def unknownFormat? (p : Param) : Option Notice :=
  match p.collectionFormat with
  | none => none
  | some f =>
    match CollectionFormat.ofName? f with
    | none => some (.unknownCollectionFormat p.name f)
    | some _ => none

/-- The notices that making a source gives.  All parameters are looked at for their own calls, and
once more for the import, up to the first that needs it. -/
def emitNotices (rules : List Rule) : List Notice :=
  let ps := rules.flatMap Rule.params
  ps.filterMap unknownFormat? ++
    (ps.takeWhile fun p => (CollectionFormat.ofParam? p).isNone).filterMap unknownFormat?

end SwaggerRoutes.Source
