import OpticalDisc.Error
import OpticalDisc.PlaybackTime

/-!
# Titles and their selection

A catalog lists the titles of a disc in the order of its index. Without an explicit choice the title
that the disc declares as its main feature is played, or else the longest candidate; the rule for
equally long ones is the catalog's.
-/

namespace OpticalDisc

/-- Where the playable structure of a title is found. -/
inductive TitleReference
  /-- A title of a DVD title set, both counted from one. -/
  | dvd (titleSet title : Nat)
  /-- A Blu-ray playlist by its number. -/
  | bluray (playlist : Nat)
  deriving DecidableEq, Repr

/-- One entry of a disc's title table. -/
structure Title where
  /-- The position in the table, from zero. -/
  index : Nat
  /-- In 90 kHz ticks. -/
  duration : Nat
  chapterCount : Nat
  /-- The number of cells or clips that make up the title. -/
  unitCount : Nat
  angleCount : Nat
  reference : TitleReference
  deriving DecidableEq, Repr

/-- The duration in seconds. -/
def Title.durationSeconds (title : Title) : Float :=
  title.duration.toUInt64.toFloat / discClock.toUInt64.toFloat

/-- One line that describes the title. -/
def Title.summary (title : Title) : String :=
  let length := clockText title.duration
  match title.reference with
  | .dvd .. =>
    let number := Text.zeroPadded 3 title.index
    s!"title {number} : ({length}) and {title.chapterCount} chapter(s)"
  | .bluray playlist =>
    let number := Text.zeroPadded 5 playlist
    s!"title {title.index}: {number}.mpls ({length}) with {title.chapterCount} chapter(s)"

/-- A chapter of a title's linear stream. -/
structure Chapter where
  index : Nat
  start : Int
  finish : Int
  timeBase : TimeBase
  deriving DecidableEq, Repr

/-- The chapter with its times in another base. -/
def Chapter.inBase (chapter : Chapter) (base : TimeBase) : Chapter :=
  { chapter with
    start := TimeBase.convert chapter.start chapter.timeBase base
    finish := TimeBase.convert chapter.finish chapter.timeBase base
    timeBase := base }

/-- Which of several longest candidates wins. -/
inductive TieRule
  | last
  | first
  deriving DecidableEq, Repr

/-- How finely durations are compared. -/
inductive Precision
  | ticks
  | wholeSeconds
  deriving DecidableEq, Repr

/-- The duration as far as the precision sees it. -/
def Precision.key (precision : Precision) (title : Title) : Nat :=
  match precision with
  | .ticks => title.duration
  | .wholeSeconds => title.duration / discClock

/-- The titles of a disc and what is needed to choose among them. -/
structure Catalog where
  titles : Array Title
  /-- Positions in `titles`, in the order in which the longest one is looked for. -/
  candidates : List Nat
  /-- The title that the disc declares as its main feature. -/
  mainTitle : Option Nat := none
  tieRule : TieRule
  precision : Precision := .ticks
  deriving DecidableEq, Repr

namespace Catalog

/-- The catalog in which every title is a candidate. -/
def ofTitles (titles : Array Title) (tieRule : TieRule) : Catalog :=
  { titles, candidates := List.range titles.size, tieRule }

variable (catalog : Catalog)

/-- The candidates that are in the catalog. -/
def candidateTitles : List Title :=
  catalog.candidates.filterMap fun i => catalog.titles[i]?

/-- Whether `title` replaces the longest title so far. -/
def replaces (best title : Title) : Bool :=
  let bestKey := catalog.precision.key best
  let key := catalog.precision.key title
  match catalog.tieRule with
  | .last => bestKey ≤ key
  | .first => bestKey < key

def longest? : Option Title :=
  catalog.candidateTitles.foldl
    (fun best? title =>
      match best? with
      | none => some title
      | some best => if catalog.replaces best title then some title else some best)
    none

/-- The declared main title, if it is in the catalog. -/
def main? : Option Title := do
  catalog.titles[← catalog.mainTitle]?

/-- The title chosen explicitly, or else the main title, or else the longest. -/
def select (choice : Option Nat) : Except Error Title :=
  match choice with
  | some id =>
    match catalog.titles[id]? with
    | some title => .ok title
    | none => .error (.outOfRange "title" id catalog.titles.size)
  | none =>
    match catalog.main?.or catalog.longest? with
    | some title => .ok title
    | none => .error (.notFound "no playable title on disc")

end Catalog

end OpticalDisc
