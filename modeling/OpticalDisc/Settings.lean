import OpticalDisc.Bluray.OpenTitle
import OpticalDisc.Dvd.TitleStream

/-!
# Settings

What a user can set once for all discs: the title and angle that are opened, the time base that
times are given in, and the size of the read buffer. Choices made for one disc take precedence.
-/

namespace OpticalDisc

structure DvdSettings where
  /-- The title to open; the longest one without it. -/
  title : Option Nat := none
  /-- The camera angle, from zero. -/
  angle : Nat := 0
  deriving DecidableEq, Repr

structure BluraySettings where
  /-- The title to open; the main or longest one without it. -/
  title : Option Nat := none
  /-- Titles that last fewer seconds are not listed. -/
  minTitleLength : Nat := 180
  deriving DecidableEq, Repr

structure OutputSettings where
  /-- Times are given in fractions of a second with this denominator. -/
  timeBaseDen : Nat := 1000000
  /-- The size of the read buffer. -/
  bufferSectors : Nat := 16
  deriving DecidableEq, Repr

structure Settings where
  dvd : DvdSettings := {}
  bluray : BluraySettings := {}
  output : OutputSettings := {}
  deriving DecidableEq, Repr

def OutputSettings.timeBase (output : OutputSettings) : TimeBase :=
  ⟨1, output.timeBaseDen⟩

/-- A setting outside its range. -/
inductive SettingFault
  | dvdTitle (title : Nat)
  | dvdAngle (angle : Nat)
  | blurayTitle (title : Nat)
  | minTitleLength (seconds : Nat)
  | noTimeBase
  | noBuffer
  deriving DecidableEq, Repr

namespace Settings

def dvdTitleLimit : Nat := 9999

def dvdAngleLimit : Nat := 256

def blurayTitleLimit : Nat := 99999

/-- The shortest and the longest minimum length. -/
def minTitleLengthLimits : Nat × Nat := (180, 99999)

end Settings

def SettingFault.message : SettingFault → String
  | dvdTitle title => s!"DVD title {title} is out of range (0..={Settings.dvdTitleLimit})"
  | dvdAngle angle => s!"DVD angle {angle} is out of range (0..={Settings.dvdAngleLimit})"
  | blurayTitle title => s!"Blu-ray title {title} is out of range (0..={Settings.blurayTitleLimit})"
  | minTitleLength seconds =>
    let (low, high) := Settings.minTitleLengthLimits
    s!"Blu-ray min_title_length {seconds} is out of range ({low}..={high})"
  | noTimeBase => "Output time_base_den cannot be 0"
  | noBuffer => "Output buffer_sectors cannot be 0"

namespace Settings

variable (settings : Settings)

/-- The first setting that is outside its range. -/
def fault? : Option SettingFault :=
  let { dvd, bluray, output } := settings
  let (low, high) := minTitleLengthLimits
  if let some title := dvd.title.filter (dvdTitleLimit < ·) then some (.dvdTitle title)
  else if dvdAngleLimit < dvd.angle then some (.dvdAngle dvd.angle)
  else if let some title := bluray.title.filter (blurayTitleLimit < ·) then
    some (.blurayTitle title)
  else if bluray.minTitleLength < low ∨ high < bluray.minTitleLength then
    some (.minTitleLength bluray.minTitleLength)
  else if output.timeBaseDen = 0 then some .noTimeBase
  else if output.bufferSectors = 0 then some .noBuffer
  else none

/-- How a DVD title is opened; a title and an angle that are given take precedence. -/
def dvdSelection (title angle : Option Nat) : DvdSelection where
  title := title.or settings.dvd.title
  angle := angle.getD settings.dvd.angle
  timeBase := settings.output.timeBase
  bufferSectors := settings.output.bufferSectors

/-- How a Blu-ray title is opened; a title that is given takes precedence. -/
def bluraySelection (title : Option Nat) : BluraySelection where
  title := title.or settings.bluray.title
  minTitleLength := settings.bluray.minTitleLength
  timeBase := settings.output.timeBase

end Settings

end OpticalDisc
