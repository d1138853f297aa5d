import GrowthEstimate.Export.Csv
import GrowthEstimate.Proofs.FunctionNames
import GrowthEstimate.Proofs.ReportReading

/-!
# Comma-separated values read back

A reader takes one character at a time.  Outside quotes a comma ends a field and a line feed ends
a record; inside them both are ordinary, and a quote that is written twice stands for one.  It
gives back every record that is written, whatever the fields hold.

* `run_field`: a field is read back, and what ends it is read outside quotes;
* `run_record`, `read_records`: so are a record and any number of them;
* `not_isLineEnd_of_mem_functionFields`: no field of an analysed text holds a line end;
* `read_render`: the records of a report, and the lines that they are on.
-/

namespace GrowthEstimate.Export.Csv

open Text (isLineEnd splitLines)

/-! ## The reader -/

/-- Where the reader stands in a field; what has been read of it is kept backwards. -/
inductive Place
  | plain (read : Text)
  | quoted (read : Text)
  /-- Behind a quote in a quoted field, which ends the quotes unless another one follows. -/
  | behindQuote (read : Text)

/-- The reader: its place, and the fields and records behind it, the last one first. -/
structure Scan where
  place : Place
  fields : List Text
  records : List (List Text)

namespace Scan

/-- One character outside quotes, behind what has been read of its field. -/
def outside (s : Scan) (read : Text) (c : Char) : Scan :=
  if c == ',' then ⟨.plain [], read.reverse :: s.fields, s.records⟩
  else if c == '\n' then ⟨.plain [], [], (read.reverse :: s.fields).reverse :: s.records⟩
  else { s with place := .plain (c :: read) }

def step (s : Scan) (c : Char) : Scan :=
  match s.place with
  | .plain read =>
    if c == '"' && read.isEmpty then { s with place := .quoted [] } else s.outside read c
  | .quoted read => { s with place := if c == '"' then .behindQuote read else .quoted (c :: read) }
  | .behindQuote read =>
    if c == '"' then { s with place := .quoted ('"' :: read) } else s.outside read c

def run (s : Scan) (text : Text) : Scan := text.foldl step s

/-- The records at the end of a text; one that no line feed has ended is among them. -/
def finish (s : Scan) : List (List Text) :=
  match s.place, s.fields with
  | .plain [], [] => s.records.reverse
  | .plain read, fields | .quoted read, fields | .behindQuote read, fields =>
    ((read.reverse :: fields).reverse :: s.records).reverse

def fresh (records : List (List Text)) : Scan := ⟨.plain [], [], records⟩

theorem run_append (s : Scan) (front behind : Text) :
    s.run (front ++ behind) = (s.run front).run behind := List.foldl_append

theorem run_cons (s : Scan) (c : Char) (behind : Text) :
    s.run (c :: behind) = (s.step c).run behind := rfl

end Scan

/-- The records of a text, each as its fields. -/
def read (text : Text) : List (List Text) := ((Scan.fresh []).run text).finish

/-! ## What is written is read back -/

namespace Scan

variable {fields : List Text} {records : List (List Text)}

theorem run_plain {s : Text} (h : ∀ c ∈ s, needsQuotes c = false) (done : Text) :
    run ⟨.plain done, fields, records⟩ s = ⟨.plain (s.reverse ++ done), fields, records⟩ := by
  induction s generalizing done with
  | nil => rfl
  | cons c s ih =>
    have hc := h c List.mem_cons_self
    simp only [needsQuotes, Bool.or_eq_false_iff] at hc
    have hstep : step ⟨.plain done, fields, records⟩ c = ⟨.plain (c :: done), fields, records⟩ := by
      simp [step, outside, hc]
    rw [run_cons, hstep, ih fun d hd => h d (List.mem_cons_of_mem _ hd)]
    simp

theorem run_doubleQuotes (s done : Text) :
    run ⟨.quoted done, fields, records⟩ (doubleQuotes s)
      = ⟨.quoted (s.reverse ++ done), fields, records⟩ := by
  induction s generalizing done with
  | nil => rfl
  | cons c s ih =>
    have hfront : doubleQuotes (c :: s)
        = (if c == '"' then ['"', '"'] else [c]) ++ doubleQuotes s := List.flatMap_cons
    have hchar : run ⟨.quoted done, fields, records⟩ (if c == '"' then ['"', '"'] else [c])
        = ⟨.quoted (c :: done), fields, records⟩ := by
      by_cases hc : c = '"'
      · rw [hc]
        rfl
      · simp [run, step, hc]
    rw [hfront, run_append, hchar, ih]
    simp

/-- Behind a field only a quote would be taken as part of it. -/
theorem run_field (s : Text) {c : Char} (hc : c ≠ '"') :
    run ⟨.plain [], fields, records⟩ (field s ++ [c])
      = outside ⟨.plain [], fields, records⟩ s.reverse c := by
  rw [run_append, run_cons, field]
  cases hquotes : s.any needsQuotes with
  | false =>
    have hplain : ∀ d ∈ s, needsQuotes d = false := by
      simpa [List.any_eq_false] using hquotes
    rw [if_neg (by simp), run_plain hplain]
    simp [step, hc, outside, run]
  | true =>
    have hopen : step ⟨.plain [], fields, records⟩ '"' = ⟨.quoted [], fields, records⟩ := rfl
    rw [if_pos rfl, List.cons_append, run_cons, hopen, run_append, run_doubleQuotes]
    simp [run, step, hc, outside]

theorem run_record {names : List Text} (hne : names ≠ []) :
    run ⟨.plain [], fields, records⟩ (record names)
      = fresh ((fields.reverse ++ names) :: records) := by
  induction names generalizing fields with
  | nil => exact absurd rfl hne
  | cons name rest ih =>
    cases rest with
    | nil =>
      have hrecord : record [name] = field name ++ ['\n'] := by
        simp [record, List.intercalate]
      rw [hrecord, run_field name (by decide)]
      simp [outside, fresh]
    | cons next rest =>
      have hrecord : record (name :: next :: rest)
          = field name ++ [','] ++ record (next :: rest) := by
        simp [record, List.intercalate]
      have hcomma : outside ⟨.plain [], fields, records⟩ name.reverse ','
          = ⟨.plain [], name :: fields, records⟩ := by
        simp [outside]
      rw [hrecord, run_append, run_field name (by decide), hcomma, ih (List.cons_ne_nil _ _)]
      simp

end Scan

/-- A record without any field would be read as one with an empty field. -/
theorem read_records {rows : List (List Text)} (h : ∀ row ∈ rows, row ≠ []) :
    read (rows.flatMap record) = rows := by
  have hrun : ∀ records, (Scan.fresh records).run (rows.flatMap record)
      = Scan.fresh (rows.reverse ++ records) := by
    induction rows with
    | nil => exact fun _ => rfl
    | cons row rest ih =>
      intro records
      rw [List.flatMap_cons, Scan.run_append, Scan.fresh,
        Scan.run_record (h row List.mem_cons_self), ih fun r hr => h r (List.mem_cons_of_mem _ hr)]
      simp
  rw [read, hrun]
  simp [Scan.finish, Scan.fresh]

/-! ## Records and lines -/

def line (fields : List Text) : Text := [','].intercalate (fields.map field)

theorem isLineEnd_of_mem_field {s : Text} {c : Char} (h : c ∈ field s) (hend : isLineEnd c = true) :
    c ∈ s := by
  rw [field] at h
  split at h
  · have hquote : c ≠ '"' := by
      rintro rfl
      cases hend
    have hdoubled : c ∈ doubleQuotes s := by simpa [hquote] using h
    obtain ⟨d, hd, hcd⟩ := List.mem_flatMap.1 hdoubled
    split at hcd
    · simp [hquote] at hcd
    · rwa [List.mem_singleton.1 hcd]
  · exact h

theorem not_isLineEnd_of_mem_line {fields : List Text}
    (h : ∀ s ∈ fields, ∀ c ∈ s, isLineEnd c = false) : ∀ c ∈ line fields, isLineEnd c = false := by
  have hfield : ∀ s ∈ fields, ∀ c ∈ field s, isLineEnd c = false := by
    intro s hs c hc
    by_contra hend
    rw [Bool.not_eq_false] at hend
    exact absurd (h s hs c (isLineEnd_of_mem_field hc hend)) (by simp [hend])
  clear h
  induction fields with
  | nil => simp [line]
  | cons s rest ih =>
    have hs := hfield s List.mem_cons_self
    cases rest with
    | nil => simpa [line] using hs
    | cons next rest =>
      have hcomma : isLineEnd ',' = false := by decide
      have hrest := ih fun t ht => hfield t (List.mem_cons_of_mem _ ht)
      have hline : line (s :: next :: rest) = field s ++ ',' :: line (next :: rest) := by
        simp [line, List.intercalate]
      intro c hc
      rw [hline, List.mem_append, List.mem_cons] at hc
      rcases hc with hc | rfl | hc
      · exact hs c hc
      · exact hcomma
      · exact hrest c hc

theorem splitLines_records {rows : List (List Text)}
    (h : ∀ row ∈ rows, ∀ s ∈ row, ∀ c ∈ s, isLineEnd c = false) :
    splitLines (rows.flatMap record) = rows.map line := by
  induction rows with
  | nil => rfl
  | cons row rest ih =>
    have hrecord : record row = line row ++ ['\n'] := rfl
    have hrow := not_isLineEnd_of_mem_line (h row List.mem_cons_self)
    rw [List.flatMap_cons, List.map_cons, hrecord, Text.splitLines_append,
      Text.splitLines_lineEnd (by decide) hrow, ih fun r hr => h r (List.mem_cons_of_mem _ hr)]
    · rfl
    · simp [isLineEnd]
    · simp

/-! ## The reports of an analysis -/

theorem not_isLineEnd_of_any {s : Text} (h : s.any isLineEnd = false) :
    ∀ c ∈ s, isLineEnd c = false := by
  simpa [List.any_eq_false] using h

theorem not_isLineEnd_of_mem_name {source : Text} {family : Family} {span : Span}
    (h : span ∈ (extractLines (splitLines source) family).spans) :
    ∀ c ∈ span.name, isLineEnd c = false := by
  rcases name_of_mem_extractLines h with hname | ⟨line, hline, hname⟩
  · rw [hname]
    exact not_isLineEnd_of_any (by decide)
  · refine not_isLineEnd_of_nameIn? (fun c hc => ?_) hname
    exact Text.not_isLineEnd_of_mem_splitLines hline c (Text.mem_trim hc)

theorem not_isLineEnd_of_isDigit {c : Char} (h : c.isDigit = true) : isLineEnd c = false := by
  simp only [Char.isDigit, Bool.and_eq_true, decide_eq_true_eq, UInt32.le_iff_toNat_le] at h
  simp only [isLineEnd, Bool.or_eq_false_iff, Bool.and_eq_false_iff, decide_eq_false_iff_not,
    beq_eq_false_iff_ne]
  have hzero : '0'.val.toNat = 48 := rfl
  have hnine : '9'.val.toNat = 57 := rfl
  have hc : c.toNat = c.val.toNat := rfl
  omega

theorem not_isLineEnd_of_mem_ofInt (n : Int) : ∀ c ∈ Decimal.ofInt n, isLineEnd c = false := by
  intro c hc
  cases n with
  | ofNat n => exact not_isLineEnd_of_isDigit (Decimal.isDigit_of_mem_ofNat hc)
  | negSucc n =>
    rcases List.mem_cons.1 hc with rfl | hc
    · decide
    · exact not_isLineEnd_of_isDigit (Decimal.isDigit_of_mem_ofNat hc)

theorem not_isLineEnd_of_mem_functionFields {source tag : Text} {f : FunctionReport}
    (h : f ∈ (analyzeText source tag).functions) :
    ∀ s ∈ functionFields f, ∀ c ∈ s, isLineEnd c = false := by
  have hconfidences : ∀ x ∈ [(0.9 : Float), 0.85, 0.8, 0.7, 0.6],
      (Decimal.floatText numberLayout x).any isLineEnd = false := by
    decide +kernel
  have hsymbols : ∀ g : Growth,
      g.symbol.any isLineEnd = false ∧ g.description.any isLineEnd = false := by
    intro g
    cases g <;> decide
  have hname : ∀ c ∈ f.name, isLineEnd c = false := by
    obtain ⟨span, hspan, rfl⟩ := exists_span_of_mem_analyzeText h
    exact not_isLineEnd_of_mem_name hspan
  obtain ⟨hsymbol, hdescription⟩ := hsymbols f.growth
  have hconfidence := hconfidences _ (confidence_mem_of_analyzeText h)
  simp only [functionFields, List.forall_mem_cons]
  exact ⟨hname, not_isLineEnd_of_any hsymbol, not_isLineEnd_of_any hconfidence,
    not_isLineEnd_of_mem_ofInt _, not_isLineEnd_of_mem_ofInt _,
    not_isLineEnd_of_any hdescription, by simp⟩

/-- What is written of any report is read back field by field.  The report of an analysis has no
line end in any field, so each of its records is a line of the text. -/
theorem read_render (r : Report) :
    read (render r) =
        ["Function", "Complexity", "Confidence", "Line Start", "Line End", "Description"].map
            String.toList
          :: r.functions.map (fun f =>
            [ f.name, f.growth.symbol, Decimal.floatText numberLayout f.confidence,
              Decimal.ofInt f.first, Decimal.ofInt f.last, f.growth.description ])
      ∧ ∀ source tag, analyze source tag = .ok r →
          (∀ f ∈ r.functions, ∀ s ∈ functionFields f, ∀ c ∈ s, isLineEnd c = false)
            ∧ (splitLines (render r)).length = r.functions.length + 1
            ∧ splitLines (render r) =
              line columns :: r.functions.map fun f => line (functionFields f) := by
  constructor
  · refine read_records fun row hrow => ?_
    rcases List.mem_cons.1 hrow with rfl | hrow
    · exact List.cons_ne_nil _ _
    · obtain ⟨f, -, rfl⟩ := List.mem_map.1 hrow
      exact List.cons_ne_nil _ _
  · intro source tag hreport
    obtain ⟨-, rfl⟩ := analyze_eq_ok_iff.1 hreport
    have hfields : ∀ f ∈ (analyzeText source tag).functions, ∀ s ∈ functionFields f, ∀ c ∈ s,
        isLineEnd c = false := fun f => not_isLineEnd_of_mem_functionFields
    have hlineEnds : ∀ s ∈ columns, s.any isLineEnd = false := by decide
    have hcolumns : ∀ s ∈ columns, ∀ c ∈ s, isLineEnd c = false :=
      fun s hs => not_isLineEnd_of_any (hlineEnds s hs)
    have hlines : splitLines (render (analyzeText source tag)) = line columns ::
        (analyzeText source tag).functions.map fun f => line (functionFields f) := by
      rw [render, splitLines_records, List.map_cons, List.map_map]
      · rfl
      · simpa using ⟨hcolumns, hfields⟩
    refine ⟨hfields, ?_, hlines⟩
    rw [hlines, List.length_cons, List.length_map]

/-- A name with a comma and a quote, which is written in quotes on its line. -/
theorem read_render_quoted :
    let source := "def pair,\"(a):\n    return a\n".toList
    ∃ r, analyze source "python".toList = .ok r
      ∧ splitLines (render r) =
        [ "Function,Complexity,Confidence,Line Start,Line End,Description".toList,
          "\"pair,\"\"\",O(1),0.9,2,2,Constant time - excellent performance".toList ] := by
  intro source
  have hreport : analyze source "python".toList = .ok (analyzeText source "python".toList) :=
    analyze_of_length (by decide +kernel) (by decide +kernel) _
  obtain ⟨-, hlines⟩ := read_render (analyzeText source "python".toList)
  obtain ⟨-, -, hsplit⟩ := hlines source _ hreport
  exact ⟨_, hreport, hsplit.trans (by decide +kernel)⟩

end GrowthEstimate.Export.Csv
