import LineConsole.Interpreter.Basic
import LineConsole.Text.Blank

/-!
# The echo interpreter

An interpreter for demonstrations: it replies with the line it was given and completes names from a
fixed vocabulary. A name is offered when the word before the cursor is a proper beginning of it, and
replaces that word. Names are dotted; what precedes the last dot of a name is its parent, which the
offer mentions.

## Main definitions

* `Vocabulary.insert`, `Vocabulary.ofList` — names in ascending order, each once
* `Echo.offers` — the completions of a text
* `Echo.interpreter` — the interpreter
-/

namespace LineConsole

namespace Vocabulary

/-- Puts a name in its place among ascending names, unless it is there. -/
def insert (name : Text) : List Text → List Text
  | [] => [name]
  | first :: others =>
    if name < first then name :: first :: others
    else if name = first then first :: others
    else first :: insert name others

/-- The names of a list in ascending order of their code points, each once. -/
def ofList (names : List Text) : List Text := names.foldr insert []

end Vocabulary

namespace Echo

/-- What precedes the last dot of a name; nothing if it has none. -/
def parent (name : Text) : Text := ((name.reverse.dropWhile fun c => c ≠ '.').drop 1).reverse

/-- How a name is described: by its parent, if it has one. -/
def describe (name : Text) : Text :=
  if parent name = [] then [] else "in ".toList ++ parent name

/-- The completion that replaces a word by a name. -/
def offer (word name : Text) : Completion where
  label := name
  insertText := name
  charsToRemove := word.length
  description := describe name

/-- The names of which the word before the cursor is a proper beginning, as completions. -/
def offers (names : List Text) (typed : Text) : List Completion :=
  let word := typed.trailingWord
  (names.filter fun name => word.isPrefixOf name && name ≠ word).map (offer word)

/-- The title of an echo interpreter that was given none. -/
def defaultTitle : Text := "Echo".toList

/-- The interpreter that echoes lines and completes the names of a vocabulary. -/
def interpreter (vocabulary : List Text) (title : Text := defaultTitle) : Interpreter where
  title
  completions := offers (Vocabulary.ofList vocabulary)
  execute := .text

end Echo

end LineConsole
