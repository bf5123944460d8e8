import Mathlib.Algebra.Field.Rat
import ToyBox.Library.Checked
import ToyBox.Library.Tally
import ToyBox.MovieAnalysis.Date

/-! The score chart of `MovieAnalysis`: how the reviews of one movie become an axis of dates and five series.
What pandas and the sets of Python leave open (the reading of a date, the order of a set, the order that an
unstable sort gives equal rows) is a parameter of the model. -/

namespace ToyBox.MovieAnalysis

/-- A score that is not missing: a number, or a cell that `read_csv` could not read as a finite one. -/
inductive Score where
  | number (value : ℚ)
  | other (cell : Bytes)
deriving DecidableEq

/-- A row of the csv file under the names that `movie_info` gives its columns; `none` is a NaN. -/
structure Review where
  movieName : Option Bytes
  userName : Option Bytes
  content : Option Bytes
  date : Option Bytes
  votes : Option ℚ
  score : Option Score
deriving DecidableEq

namespace Review

def hasNaN (review : Review) : Bool :=
  review.movieName.isNone || review.userName.isNone || review.content.isNone || review.date.isNone ||
    review.votes.isNone || review.score.isNone

/-- The columns `['score', 'date']` of the row. -/
def scoreAndDate (review : Review) : Option (Score × Bytes) := do
  return (← review.score, ← review.date)

end Review

/-- `movie_info` drops the rows with a NaN in any column. -/
def movieInfo (dta : List Review) : List Review := dta.filter fun review => !review.hasNaN

/-- A row of the frames `info_new` and `create_df`. The dates are first the text of the file, then timestamps,
then the text of the timestamps. -/
structure Row (δ : Type) where
  score : Score
  date : δ
  votes : Nat
deriving DecidableEq

inductive PyError where
  | valueError
  | indexError
deriving DecidableEq

/-- What the libraries leave open. -/
structure Libraries where
  /-- `pd.to_datetime` with the format `%Y/%m/%d` on one cell. -/
  toDatetime : Bytes → Option Date
  pairSet : SetOrder (Score × Bytes)
  dateSet : SetOrder Bytes
  /-- The two calls of `sort_values('date')`. -/
  sortDates : SortOrder fun a b : Row Date => a.date ≤ b.date
  sortTexts : SortOrder fun a b : Row Bytes => a.date ≤ b.date

/-- The names of the series and their scores. -/
def stars : List (String × ℚ) := [("五星", 50), ("四星", 40), ("三星", 30), ("二星", 20), ("一星", 10)]

/-- What the line chart is given. -/
structure Chart where
  xaxis : List Bytes
  yaxis : List (String × List Nat)
deriving DecidableEq

/-- `score_list`: the pairs of score and date text. -/
def scoreList (dta : List Review) : List (Score × Bytes) := (movieInfo dta).filterMap Review.scoreAndDate

/-- `result` and `info`: every pair with the number of times it occurs. -/
def info (lib : Libraries) (scoreList : List (Score × Bytes)) : List (Row Bytes) :=
  (lib.pairSet.elems scoreList).map fun key => ⟨key.1, key.2, scoreList.count key⟩

/-- Naming the three columns fails for a frame without rows, which has no columns. -/
def nameColumns (info : List (Row Bytes)) : Except PyError (List (Row Bytes)) :=
  if info = [] then throw .valueError else return info

def parseDate (lib : Libraries) (row : Row Bytes) : Except PyError (Row Date) :=
  match lib.toDatetime row.date with
  | some date => return { row with date }
  | none => throw .valueError

def astypeStr (row : Row Date) : Row Bytes := { row with date := row.date.text }

/-- `(info_new.date == i) & (info_new.score == score)` -/
def located (i : Bytes) (score : ℚ) (row : Row Bytes) : Bool := row.date = i ∧ row.score = .number score

/-- One of the five tests in the loop over the dates: a row without votes where there is none. -/
def missing (infoNew : List (Row Bytes)) (i : Bytes) (score : ℚ) : List (Row Bytes) :=
  if infoNew.filter (located i score) = [] then [⟨.number score, i, 0⟩] else []

/-- The rows that the loop over `list(info_new['date'])` adds. -/
def createDf (infoNew : List (Row Bytes)) : List (Row Bytes) :=
  (infoNew.map Row.date).flatMap fun i => stars.flatMap fun star => missing infoNew i star.2

/-- `sorted(set(info_new['date']))` -/
def attr (lib : Libraries) (infoNew : List (Row Bytes)) : List Bytes :=
  (lib.dateSet.elems (infoNew.map Row.date)).insertionSort (· ≤ ·)

/-- `int(info_new[…]['votes'].iloc[0])` -/
def votesAt (infoNew : List (Row Bytes)) (score : ℚ) (i : Bytes) : Except PyError Nat :=
  match infoNew.filter (located i score) with
  | row :: _ => return row.votes
  | [] => throw .indexError

/-- One of the lists `v1` to `v5` under its name. -/
def series (infoNew : List (Row Bytes)) (attr : List Bytes) (star : String × ℚ) :
    Except PyError (String × List Nat) := do
  return (star.1, ← attr.mapM (votesAt infoNew star.2))

def drawContentPic (lib : Libraries) (dta : List Review) : Except PyError Chart := do
  let infoNew ← nameColumns (info lib (scoreList dta))
  let infoNew ← infoNew.mapM (parseDate lib)
  let infoNew := (lib.sortDates.sort infoNew).map astypeStr
  -- `concat` with `drop_duplicates`, then the second sort
  let infoNew := lib.sortTexts.sort ((createDf infoNew).eraseDups ++ infoNew)
  let attr := attr lib infoNew
  -- the loop over `attr` fills the five lists side by side
  let yaxis ← stars.mapM (series infoNew attr)
  return { xaxis := attr, yaxis }

end ToyBox.MovieAnalysis
