import Templating.Parser.Builtin
import Templating.Text.Aligned
import Templating.Text.Quoted
import Templating.Token.Json

/-!
# Listings

What the program reports about templates: the tokens of a template, a rendered
template, and the tags and the state of a parser. Reports are written for people
or as JSON.

Main definitions:

* `Listing`, the tokens of a template, with `Listing.text` and `Listing.json`;
* `Rendering`, the output of a template;
* `tagListing` and `Parser.description`.
-/

namespace Templating

open Text

section Tokens

/-- The tokens of a template, which is named by its path. -/
structure Listing where
  template : String
  tokens : List Token

namespace Listing

/-- The width of the column of kinds. -/
def kindWidth : Nat :=
  9

/-- The line of a token: its kind, and its payload in quotes. -/
def line (t : Token) : List Char :=
  aligned .left kindWidth none t.kind.name.toList ++
    quotedChars t.payload.toList ++ ['\n']

/-- One line a token. -/
def text (listing : Listing) : String :=
  match listing.tokens with
  | [] => "No tokens.\n"
  | tokens => String.ofList (tokens.flatMap line)

/-- The listing as a value. -/
def toValue (listing : Listing) : Value :=
  .object
    [("template", .string listing.template),
     ("tokens", .array (listing.tokens.map Token.toValue))]

/-- The listing as indented JSON. -/
def json (listing : Listing) : String :=
  Json.prettyText listing.toValue

end Listing

end Tokens

section Rendering

/-- The output of a template, which is named by its path. -/
structure Rendering where
  template : String
  output : String

/-- The rendering as indented JSON, the template first. -/
def Rendering.json (r : Rendering) : String :=
  Json.prettyText
    (.object [("template", .string r.template), ("output", .string r.output)])

end Rendering

section Tags

/-- One tag a line. -/
def tagListing (tags : List String) : String :=
  String.join (tags.map (· ++ "\n"))

/-- Tags as indented JSON. -/
def tagListingJson (tags : List String) : String :=
  Json.prettyText (.object [("tags", .array (tags.map Value.string))])

/-- The state of a parser on one line: the length of the queue, the tags, and
whether it is strict. -/
def Parser.description (p : Parser) : String :=
  "TokenParser \x7b tokens: " ++ quoted (p.queue.length.repr ++ " remaining") ++
    ", tags: [" ++ ", ".intercalate ((Keyed.keys p.tags).map quoted) ++
    "], options: ParserOptions \x7b strict_tags: " ++
    (if p.strict then "true" else "false") ++ " \x7d \x7d"

end Tags

end Templating
