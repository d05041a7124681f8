import Outlayer.Lib.Text

/-!
# `Worker.Tasks.Display` — what a text that is shown may hold

A text of a display is drawn as it is. So no character in it is one that is not drawn or changes how others are drawn,
unless it stands where it is part of a picture.
-/

namespace Outlayer
open Text

namespace Worker
namespace Tasks

/-- Most characters of a long text. -/
def maxLongTextChars : Nat := 50000

/-- Most combining marks in a row. -/
def maxCombiningRun : Nat := 4

/-- Ranges of code points, both ends in. -/
def inRanges (ranges : List (Nat × Nat)) (c : Char) : Bool := ranges.any fun r => r.1 ≤ c.toNat && c.toNat ≤ r.2

/-- A character that is not drawn, or that changes how the characters around it are drawn. -/
def misleads (c : Char) : Bool :=
  isControl c || inRanges
    [(0x00ad, 0x00ad), (0x034f, 0x034f), (0x061c, 0x061c), (0x115f, 0x1160), (0x17b4, 0x17b5), (0x180b, 0x180f),
     (0x200b, 0x200f), (0x2028, 0x202e), (0x2060, 0x206f), (0x2800, 0x2800), (0x3164, 0x3164), (0xfe00, 0xfe0f),
     (0xfeff, 0xfeff), (0xffa0, 0xffa0), (0xfff9, 0xfffc), (0x1bca0, 0x1bca3), (0x1d173, 0x1d17a),
     (0xe0000, 0xe0fff)] c

/-- An emoji, a symbol or a dingbat, with the modifiers of its colour. -/
def pictures (c : Char) : Bool :=
  inRanges
    [(0x203c, 0x203c), (0x2049, 0x2049), (0x2122, 0x2122), (0x2139, 0x2139), (0x00a9, 0x00a9), (0x00ae, 0x00ae),
     (0x2190, 0x21ff), (0x2300, 0x23ff), (0x2460, 0x24ff), (0x25a0, 0x27bf), (0x2900, 0x297f), (0x2b00, 0x2bff),
     (0x3030, 0x3030), (0x303d, 0x303d), (0x3297, 0x3297), (0x3299, 0x3299), (0x1f000, 0x1faff)] c

/-- How the picture before it is drawn, as text or as an emoji. -/
def selectsAPicture (c : Char) : Bool := inRanges [(0xfe0e, 0xfe0f)] c

/-- Does a character mislead where it stands? A selector after a picture and a joiner between two are how an emoji is
    written. -/
def misleadsHere (before : Option Char) (c : Char) (after : Option Char) : Bool :=
  if !misleads c then false
  else if selectsAPicture c then !before.any fun b => pictures b || b.isDigit || b == '#' || b == '*'
  else if c.toNat = 0x200d then
    !(before.any (fun b => pictures b || selectsAPicture b) && after.any pictures)
  else true

/-- The first character that misleads and is not allowed, with what stands before it in mind. -/
def firstMisleading (allowed : Char → Bool) (before : Option Char) : List Char → Option Char
  | []      => none
  | c :: cs => if misleadsHere before c cs.head? && !allowed c then some c else firstMisleading allowed (some c) cs

/-- A mark drawn over, under or through the character before it. -/
def combines (c : Char) : Bool :=
  inRanges [(0x0300, 0x036f), (0x1ab0, 0x1aff), (0x1dc0, 0x1dff), (0x20d0, 0x20ff), (0xfe20, 0xfe2f)] c

/-- The longest run of combining marks, after `longest` so far and in a run of `run`. -/
def combiningRunFrom (longest run : Nat) : List Char → Nat
  | []      => longest
  | c :: cs =>
      let run := if combines c then run + 1 else 0
      combiningRunFrom (max longest run) run cs

/-- The longest run of combining characters in a text. -/
def longestCombiningRun (text : String) : Nat := combiningRunFrom 0 0 text.toList

/-- A code point as `U+XXXX`. -/
def codePoint (c : Char) : String := "U+" ++ String.ofList ((formatHex 4 c.toNat).toList.map Char.toUpper)

/-- Whether a text may be shown, and what is wrong with it if not. -/
def checkText (what text : String) (most : Nat) (lineBreaks : Bool) : Except String Unit :=
  let chars := text.toList.length
  if chars = 0 then .error (what ++ " is empty")
  else if chars > most then
    .error (what ++ " is " ++ toString chars ++ " characters; at most " ++ toString most ++ " are shown")
  else if text.toList.all isWhitespace then .error (what ++ " is blank")
  else
    match firstMisleading (fun c => lineBreaks && (c == '\n' || c == '\t')) none text.toList with
    | some c => .error (what ++ " holds the character " ++ codePoint c ++
        ", which is not drawn or changes how text is drawn")
    | none =>
        let run := longestCombiningRun text
        if run > maxCombiningRun then
          .error (what ++ " holds " ++ toString run ++ " combining marks in a row; at most " ++
            toString maxCombiningRun ++ " are drawn over one character")
        else .ok ()

/-- Words the owner wrote that are handed to a component. -/
def checkLongText (what text : String) : Except String Unit := checkText what text maxLongTextChars true

/-- A family is drawn as one picture, with a joiner between; a joiner between letters is not drawn. -/
example : firstMisleading (fun _ => false) none ['👩', '\u200d', '👧'] = none ∧
    firstMisleading (fun _ => false) none ['a', '\u200d', 'b'] = some '\u200d' := by decide

end Tasks
end Worker
end Outlayer
