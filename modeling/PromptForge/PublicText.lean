import PromptForge.Regex

/-!
# Public text

What a model writes between the tags of its reasoning is not for the user. A text is the list of
its characters here.
-/
namespace PromptForge.PublicText
open Regex

def tags : List String := ["think", "thinking", "analysis", "reasoning", "internal_analysis"]

/-- `str.lower`: the letters outside ASCII whose lower case begins in ASCII, and those of ASCII. -/
def lower (text : List Char) : List Char :=
  text.flatMap fun c => if c = 'İ' then ['i', '\u0307'] else if c = '\u212A' then ['k'] else [c.toLower]

variable (u : Unicode)

/-- `<(think|…)\b[^>]*>` -/
def opening : Pattern :=
  seqs [.char (· == '<'), .group 1 (anyWord tags), boundary u, star (.char (· != '>')), .char (· == '>')]

/-- `</\1\s*>` -/
def closing : Pattern := seqs [exactly "</", .backref 1, star space, .char (· == '>')]

def hiddenBlock : Pattern := .seq (opening u) (.seq (.rep 0 none false (.char fun _ => true)) (.alt closing stop))

def isUnfinished (text : List Char) : Bool :=
  tags.any fun tag =>
    (lower text).isPrefixOf ('<' :: (tag.toList ++ ['>'])) ||
      (('<' :: tag.toList).isPrefixOf (lower text) && !(lower text).contains '>')

/-- `text.rfind("<")`, and the text from there on. -/
def lastTag? (text : List Char) : Option (List Char × List Char) :=
  if text.contains '<' then
    let after := text.rtakeWhile (· != '<')
    some (text.take (text.length - (after.length + 1)), '<' :: after)
  else none

def withoutUnfinished (text : List Char) : List Char :=
  match lastTag? text with
  | some (before, tag) => if isUnfinished tag then before else text
  | none => text

def publicText (text : List Char) (limit : ℕ) : List Char := (withoutUnfinished (erase (hiddenBlock u) text)).take limit

end PromptForge.PublicText
