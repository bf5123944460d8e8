import ToyBox.LogParser.Cell

/-! What a log file says: a header, a type for every column and rows of exactly these types. This is
the purpose of `ParseRawContentFromFile`, stated without its loop: the header is the first nonempty
line, the types are those of the first later line as wide as the header, and the rows are the later
nonempty lines of these types. -/

namespace ToyBox.LogParser

open Cxx

/-- A header with at least one row below it; every row has the types of the columns. -/
structure Table where
  header : Row
  types : List DataType
  rows : List Row
  length_types : types.length = header.length
  rowTypes_eq : ∀ row ∈ rows, rowTypes row = types
  rows_ne_nil : rows ≠ []

/-- The lines of a file that are not empty. -/
def nonemptyLines (content : Bytes) : List Bytes := (getlines newline content).filter (· ≠ [])

/-- The header line, and the nonempty lines below it. -/
def headerLine? (content : Bytes) : Option Bytes := (nonemptyLines content).head?
def bodyLines (content : Bytes) : List Bytes := (nonemptyLines content).tail

/-- The cells of the header; none for a file without a nonempty line. -/
def headerRow (content : Bytes) : Row := ((headerLine? content).map parseLineContent).getD []

/-- The rows of the nonempty lines that have a given number of cells. -/
def rowsOfWidth (width : Nat) (lines : List Bytes) : List Row :=
  ((lines.filter (· ≠ [])).map parseLineContent).filter (·.length = width)

/-- The lines below the header that have as many cells as it. -/
def wideRows (content : Bytes) : List Row :=
  rowsOfWidth (headerRow content).length (bodyLines content)

/-- The rows among them that have the types of the first. -/
def typedRows (typeRow : Row) (rows : List Row) : List Row :=
  rows.filter (rowTypes · = rowTypes typeRow)

@[simp] theorem rowsOfWidth_nil (width : Nat) : rowsOfWidth width [] = [] := rfl

theorem rowsOfWidth_cons (width : Nat) (line : Bytes) (lines : List Bytes) :
    rowsOfWidth width (line :: lines) =
      if line ≠ [] ∧ (parseLineContent line).length = width then
        parseLineContent line :: rowsOfWidth width lines
      else rowsOfWidth width lines := by
  by_cases hline : line = []
  · simp [rowsOfWidth, hline]
  · by_cases hwidth : (parseLineContent line).length = width <;> simp [rowsOfWidth, hline, hwidth]

/-- Empty lines do not matter. -/
theorem rowsOfWidth_filter (width : Nat) (lines : List Bytes) :
    rowsOfWidth width (lines.filter (· ≠ [])) = rowsOfWidth width lines := by
  simp [rowsOfWidth]

theorem length_of_mem_wideRows {content : Bytes} {row : Row} (hrow : row ∈ wideRows content) :
    row.length = (headerRow content).length := by
  simpa using (List.mem_filter.mp hrow).2

/-- The table of a file, if it has one. -/
def Table.ofContent (content : Bytes) : Option Table :=
  if h : wideRows content = [] then none
  else some
    { header := headerRow content
      types := rowTypes ((wideRows content).head h)
      rows := typedRows ((wideRows content).head h) (wideRows content)
      length_types := by
        rw [length_rowTypes]
        exact length_of_mem_wideRows (List.head_mem h)
      rowTypes_eq := fun row hrow => by simpa [typedRows] using (List.mem_filter.mp hrow).2
      rows_ne_nil := by
        have hmem : (wideRows content).head h ∈
            typedRows ((wideRows content).head h) (wideRows content) :=
          List.mem_filter.mpr ⟨List.head_mem h, by simp⟩
        exact List.ne_nil_of_mem hmem }

theorem Table.ofContent_eq_none {content : Bytes} (h : wideRows content = []) :
    Table.ofContent content = none :=
  dif_pos h

theorem Table.ofContent_eq_some {content : Bytes} {typeRow : Row} {rest : List Row}
    (h : wideRows content = typeRow :: rest) :
    ∃ table, Table.ofContent content = some table ∧ table.header = headerRow content ∧
      table.types = rowTypes typeRow ∧ table.rows = typedRows typeRow (wideRows content) := by
  have hne : wideRows content ≠ [] := by simp [h]
  have hhead : (wideRows content).head hne = typeRow := by simp [h]
  refine ⟨_, dif_neg hne, rfl, ?_, ?_⟩
  · exact congrArg rowTypes hhead
  · exact congrArg (typedRows · (wideRows content)) hhead

end ToyBox.LogParser
