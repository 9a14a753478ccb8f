import TaintTrace.Text.Utf8

/-!
# Words of a command line

A line is cut into words at blanks.  Quotes and backslashes take blanks into a word,
and a word that would begin with a number sign begins a comment.
-/

namespace TaintTrace
namespace Words

inductive Mode where
  | between
  | inWord
  | escaped
  | quoted
  | quotedEscaped
  | singleQuoted
  | comment
  deriving DecidableEq, Repr

def isBlank (c : Char) : Bool :=
  c == ' ' || c == '\t' || c == '\r' || c == '\n'

/-- Cut the rest of a line into words.  The characters of the word that is being read
come last one first.  A line that ends inside of quotes or after a backslash has no
words. -/
def splitFrom : Mode -> (word : List Char) -> List Char -> Option (List (List Char))
  | .between, _, [] => some []
  | .comment, _, [] => some []
  | .inWord, word, [] => some [word.reverse]
  | _, _, [] => none
  | .between, _, c :: cs =>
      if isBlank c then splitFrom .between [] cs
      else if c = '"' then splitFrom .quoted [] cs
      else if c = '\'' then splitFrom .singleQuoted [] cs
      else if c = '\\' then splitFrom .escaped [] cs
      else if c = '#' then splitFrom .comment [] cs
      else splitFrom .inWord [c] cs
  | .inWord, word, c :: cs =>
      if isBlank c then (splitFrom .between [] cs).map (word.reverse :: ·)
      else if c = '"' then splitFrom .quoted word cs
      else if c = '\'' then splitFrom .singleQuoted word cs
      else if c = '\\' then splitFrom .escaped word cs
      else splitFrom .inWord (c :: word) cs
  | .escaped, word, c :: cs => splitFrom .inWord (c :: word) cs
  | .quoted, word, c :: cs =>
      if c = '"' then splitFrom .inWord word cs
      else if c = '\\' then splitFrom .quotedEscaped word cs
      else splitFrom .quoted (c :: word) cs
  | .quotedEscaped, word, c :: cs => splitFrom .quoted (c :: word) cs
  | .singleQuoted, word, c :: cs =>
      if c = '\'' then splitFrom .inWord word cs
      else splitFrom .singleQuoted (c :: word) cs
  | .comment, _, c :: cs =>
      if c = '\n' then splitFrom .between [] cs else splitFrom .comment [] cs

def split (line : Text) : Option (List Text) :=
  (splitFrom .between [] line.chars).map (List.map Text.ofChars)

end Words
end TaintTrace
