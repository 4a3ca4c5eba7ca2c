import ControlLogic.Library.Basic

/-!
Routines on the date and the time.
-/

set_option autoImplicit false
set_option relaxedAutoImplicit false

namespace ControlLogic.Library

def padded (places n : Nat) : String :=
  let digits := Number.decimalDigits n
  String.ofList (List.replicate (places - digits.length) '0' ++ digits)

/-- A date in the order a code asks for. -/
def dateText (at_ : Moment) (code : Int) : String :=
  let d := padded 2 at_.day
  let m := padded 2 at_.month
  let y := padded 4 at_.year
  let yy := padded 2 (at_.year % 100)
  "/".intercalate <|
    if code = 2 then [d, m, y]
    else if code = 3 then [y, m, d]
    else if code = 4 then [m, d, yy]
    else if code = 5 then [d, m, yy]
    else [m, d, y]

def timeText (at_ : Moment) : String :=
  ":".intercalate [padded 2 at_.hour, padded 2 at_.minute, padded 2 at_.second]

def dayNames : List String :=
  ["Sunday", "Monday", "Tuesday", "Wednesday", "Thursday", "Friday", "Saturday"]

def monthNames : List String :=
  ["January", "February", "March", "April", "May", "June", "July", "August", "September", "October",
    "November", "December"]

def telling (f : Moment → String) : Routine := fun context _ => .pure (.text (f context.moment))

def counting (f : Moment → Nat) : Routine := fun context _ =>
  .pure (.number (Int.ofNat (f context.moment)))

/-- The date in the order the first argument asks for. -/
def date : Routine := fun context args =>
  .pure (.text (dateText context.moment (if args.isEmpty then 1 else number args 0)))

def calendarRoutines : List (String × Routine) :=
  [("DATE", date), ("TIME", telling timeText),
    ("DAY", telling fun m => (dayNames[m.weekday]?).getD ""),
    ("MONTH", telling fun m => (monthNames[m.month - 1]?).getD ""),
    ("GETDATENUM", counting Moment.day), ("GETMONTHNUM", counting Moment.month),
    ("GETYEARNUM", counting Moment.year), ("GETHOURNUM", counting Moment.hour),
    ("GETMINUTESNUM", counting Moment.minute), ("GETSECONDSNUM", counting Moment.second),
    ("GETDAYOFWEEKNUM", counting Moment.weekday),
    ("GETTICKS", fun context _ => .pure (.number context.ticks))]

end ControlLogic.Library
