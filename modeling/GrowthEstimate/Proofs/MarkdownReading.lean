import Mathlib.Data.Bool.AllAny
import GrowthEstimate.Export.Markdown
import GrowthEstimate.Proofs.Distribution
import GrowthEstimate.Proofs.NumeralReading
import GrowthEstimate.Proofs.Spacing

/-!
# The Markdown of a report read back

A reader takes the lines of the text section by section.  The number of functions in the summary
tells it whether a distribution and how many functions follow.  Inside a section an item is told
from the end of the list by its mark, which no empty line has, so free text cannot be taken for a
heading.

* `takeRead_map`: items are read back up to the first line that is none;
* `row?_distributionRow`, `range?_lines`: a row of the distribution and the lines of a function;
* `readHeading_heading`, `readSummary_summary`, `readWarnings_warnings`, `readFunction_section`,
  `readDetails_details`: each section in front of any other lines;
* `not_mem_of_mem_lines`: no line holds a line feed when no inserted text does;
* `read_render_markdown`: what is read back of any report.
-/

namespace GrowthEstimate.Export.Markdown

open Text

/-! ## The reader -/

/-- What the Markdown of a report says of one function. -/
structure FunctionContents where
  name : Text
  growth : Growth
  first : Int
  last : Int
  rationale : List Text

/-- What the Markdown of a report says. -/
structure Contents where
  language : Text
  fileName : Option Text
  overall : Growth
  warnings : List Text
  distribution : List (Growth × Nat)
  functions : List FunctionContents

/-- A reader of the lines at the start, which gives what they say and the lines behind them. -/
abbrev Reader (α : Type) := List Text → Option (α × List Text)

def value? (label : String) (line : Text) : Option Text := after? (labelled label []) line

def itemValue? (label : String) (line : Text) : Option Text :=
  (after? (item []) line).bind (value? label)

/-- The values that `read` gives of the lines up to the first of which it gives none. -/
def takeRead {α : Type} (read : Text → Option α) : List Text → List α × List Text
  | [] => ([], [])
  | line :: rest =>
    match read line with
    | some value => (value :: (takeRead read rest).1, (takeRead read rest).2)
    | none => ([], line :: rest)

def readMany {α : Type} (read : Reader α) : Nat → Reader (List α)
  | 0, lines => some ([], lines)
  | count + 1, lines => do
    let (value, rest) ← read lines
    let (values, rest) ← readMany read count rest
    pure (value :: values, rest)

/-- The language and the file name, when one is shown. -/
def readHeading : Reader (Text × Option Text)
  | _ :: _ :: language :: file :: rest => do
    let language ← value? "Language" language
    match value? "File" file with
    | some name => pure ((language, some name), rest.drop 1)
    | none => pure ((language, none), rest)
  | _ => none

/-- The worst class and the number of functions; without functions there is no average. -/
def readSummary : Reader (Growth × Nat)
  | _ :: _ :: overall :: count :: rest => do
    let overall ← (itemValue? "Overall Complexity" overall).bind Growth.ofSymbol?
    let count ← (itemValue? "Functions Analyzed" count).map Decimal.ofDigits
    pure ((overall, count), rest.drop (if count = 0 then 1 else 2))
  | _ => none

def readWarnings (lines : List Text) : List Text × List Text :=
  if lines.head? = some "## Warnings".toList then
    let (warnings, rest) := takeRead (after? (item [])) (lines.drop 2)
    (warnings, rest.drop 1)
  else ([], lines)

def row? (line : Text) : Option (Growth × Nat) :=
  match (line.splitOn '|').map trim with
  | [_, symbol, count, _, _] =>
    (Growth.ofSymbol? symbol).map fun g => (g, Decimal.ofDigits count)
  | _ => none

def wholeNumber (s : Text) : Int := Decimal.signed (Decimal.takeMinus s).1 (Decimal.takeMinus s).2

def range? (s : Text) : Option (Int × Int) :=
  (after? " - ".toList (s.dropWhile (· != ' '))).map fun last =>
    (wholeNumber (upTo ' ' s), wholeNumber last)

def readFunction : Reader FunctionContents
  | title :: _ :: growth :: _ :: place :: _ :: rest => do
    let name ← (after? "### `".toList title).map List.dropLast
    let growth ← (itemValue? "Complexity" growth).bind Growth.ofSymbol?
    let (first, last) ← (itemValue? "Lines" place).bind range?
    let explained := rest.head? = some (item "**Analysis Details:**".toList)
    let (rationale, rest) :=
      takeRead (after? ("  ".toList ++ item [])) (if explained then rest.drop 1 else rest)
    pure (⟨name, growth, first, last, rationale⟩, rest.drop 1)
  | _ => none

/-- The distribution and the given number of functions, when there are any. -/
def readDetails (count : Nat) : Reader (List (Growth × Nat) × List FunctionContents) := fun lines =>
  if count = 0 then some (([], []), lines)
  else do
    let (distribution, rest) := takeRead row? (lines.drop 4)
    let (functions, rest) ← readMany readFunction count (rest.drop 3)
    pure ((distribution, functions), rest)

def readLines (lines : List Text) : Option Contents := do
  let ((language, fileName), rest) ← readHeading lines
  let ((overall, count), rest) ← readSummary rest
  let (warnings, rest) := readWarnings rest
  let ((distribution, functions), rest) ← readDetails count rest
  if rest.isEmpty then some ⟨language, fileName, overall, warnings, distribution, functions⟩
  else none

/-- What the Markdown of a report says, when the text is one. -/
def read (text : Text) : Option Contents := readLines (text.splitOn '\n')

/-! ## Lines and items -/

theorem value?_labelled (label : String) (value : Text) :
    value? label (labelled label value) = some value :=
  after?_eq_some_iff.2 (by simp [labelled])

theorem after?_item (content : Text) : after? (item []) (item content) = some content :=
  after?_eq_some_iff.2 (by simp [item])

theorem itemValue?_item (label : String) (value : Text) :
    itemValue? label (item (labelled label value)) = some value := by
  rw [itemValue?, after?_item, Option.bind_some, value?_labelled]

theorem takeRead_map {α : Type} {read : Text → Option α} {write : α → Text}
    (h : ∀ a, read (write a) = some a) {stop : Text} (hstop : read stop = none) (values : List α)
    (rest : List Text) :
    takeRead read (values.map write ++ stop :: rest) = (values, stop :: rest) := by
  induction values with
  | nil => simp [takeRead, hstop]
  | cons a values ih => simp [takeRead, h, ih]

theorem readMany_flatMap {α β : Type} {read : Reader β} {write : α → List Text} {view : α → β}
    (h : ∀ a rest, read (write a ++ rest) = some (view a, rest)) (values : List α)
    (rest : List Text) :
    readMany read values.length (values.flatMap write ++ rest) = some (values.map view, rest) := by
  induction values with
  | nil => rfl
  | cons a values ih => simp [readMany, h, ih]

/-! ## Numbers and rows -/

theorem wholeNumber_ofInt (n : Int) : wholeNumber (Decimal.ofInt n) = n := by
  have hhead := Json.head?_append_of_isWhole (Json.isWhole_ofNat n.natAbs) []
  rw [wholeNumber, Json.ofInt_eq, Decimal.takeMinus_sign hhead, List.append_nil]
  exact Json.signed_natAbs n

theorem isBlank_of_isNumeralChar {c : Char} (h : Decimal.IsNumeralChar c) : isBlank c = false := by
  rcases h with hdigit | hmark
  · have hword : isWordChar c = true := isWordChar_of_isAlphanum (by simp [Char.isAlphanum, hdigit])
    cases hblank : isBlank c with
    | false => rfl
    | true =>
      rw [isWordChar_of_isBlank hblank] at hword
      cases hword
  · have hmarks : ∀ mark ∈ ['-', '+', '.', 'e'], isBlank mark = false :=
      List.all_iff_forall_prop.1 (by decide)
    exact hmarks c hmark

theorem range?_lines (first last : Int) :
    range? (Decimal.ofInt first ++ " - ".toList ++ Decimal.ofInt last) = some (first, last) := by
  have hspace : ∀ c ∈ Decimal.ofInt first, (c != ' ') = true := by
    intro c hc
    have hblank := isBlank_of_isNumeralChar (Json.isNumeralChar_of_mem_ofInt hc)
    rw [bne_iff_ne]
    rintro rfl
    cases hblank
  have hrest : (Decimal.ofInt first ++ " - ".toList ++ Decimal.ofInt last).dropWhile (· != ' ') =
      " - ".toList ++ Decimal.ofInt last := by
    rw [List.append_assoc, List.dropWhile_append_of_pos hspace]
    rfl
  have hfirst : upTo ' ' (Decimal.ofInt first ++ " - ".toList ++ Decimal.ofInt last) =
      Decimal.ofInt first := by
    rw [upTo, List.append_assoc, List.takeWhile_append_of_pos hspace]
    exact List.append_nil _
  rw [range?, hrest, after?_eq_some_iff.2 rfl, Option.map_some, hfirst, wholeNumber_ofInt,
    wholeNumber_ofInt]

theorem trim_eq_self {s : Text} (h : ∀ c ∈ s, isBlank c = false) : trim s = s := by
  have hstart : s.dropWhile isBlank = s := by
    rw [List.dropWhile_eq_self_iff]
    intro hpos hblank
    rw [h _ (List.getElem_mem hpos)] at hblank
    cases hblank
  have hend : s.reverse.dropWhile isBlank = s.reverse := by
    rw [List.dropWhile_eq_self_iff]
    intro hpos hblank
    rw [h _ (List.mem_reverse.1 (List.getElem_mem hpos))] at hblank
    cases hblank
  rw [trim, trimStart, hstart, trimEnd, dropEndWhile, hend, List.reverse_reverse]

theorem trim_cell {s : Text} (h : trim s = s) : trim (' ' :: (s ++ [' '])) = s := by
  have hpad : ∀ c ∈ [' '], isBlank c = true := List.forall_mem_singleton.2 rfl
  exact (trim_margins hpad hpad s).trans h

/-- A percentage fits into a cell on one line, also that of no number. -/
theorem plain_of_mem_percentage {share : Float} {c : Char} (h : c ∈ Decimal.percentage share) :
    c ≠ '\n' ∧ c ≠ '|' := by
  have hdigit : ∀ n, ∀ d ∈ Decimal.ofNat n, d ≠ '\n' ∧ d ≠ '|' := by
    intro n d hd
    have hd := Decimal.isDigit_of_mem_ofNat hd
    constructor <;>
      · rintro rfl
        cases hd
  have hnan : ∀ d ∈ "nan".toList, d ≠ '\n' ∧ d ≠ '|' := by simp
  have hmarks : ∀ d ∈ ['-', '.', '%'], d ≠ '\n' ∧ d ≠ '|' := by simp
  rw [Decimal.percentage, Decimal.withOnePlace, List.mem_append, List.mem_singleton] at h
  rcases h with h | rfl
  · split at h
    · exact hnan c h
    · rw [List.mem_append, List.mem_append, List.mem_cons] at h
      rcases h with (hsign | hwhole) | rfl | hplace
      · split at hsign
        · exact hmarks c (by simp [List.mem_singleton.1 hsign])
        · cases hsign
      · exact hdigit _ c hwhole
      · exact hmarks '.' (by simp)
      · exact hdigit _ c hplace
  · exact hmarks '%' (by simp)

theorem symbol_plain (g : Growth) :
    trim g.symbol = g.symbol ∧ '|' ∉ g.symbol ∧ '\n' ∉ g.symbol := by
  cases g <;> decide

theorem row?_distributionRow (total : Nat) (g : Growth) (count : Nat) :
    row? (distributionRow total g count) = some (g, count) := by
  obtain ⟨htrim, hbar, -⟩ := symbol_plain g
  have hcount : ∀ c ∈ Decimal.ofNat count, isBlank c = false ∧ c ≠ '|' := by
    intro c hc
    have hdigit := Decimal.isDigit_of_mem_ofNat hc
    refine ⟨isBlank_of_isNumeralChar (.inl hdigit), ?_⟩
    rintro rfl
    cases hdigit
  let share := Float.ofNat count / Float.ofNat total
  let cells : List Text :=
    [[], ' ' :: (g.symbol ++ [' ']), ' ' :: (Decimal.ofNat count ++ [' ']),
      ' ' :: (Decimal.percentage share ++ [' ']), []]
  have hrow : distributionRow total g count = ['|'].intercalate cells := by
    simp [distributionRow, cells, share, List.intercalate]
  have hplain : ∀ cell ∈ cells, '|' ∉ cell := by
    have hcell : ∀ s : Text, '|' ∉ s → '|' ∉ ' ' :: (s ++ [' ']) := fun s hs => by simp [hs]
    simp only [cells, List.forall_mem_cons]
    exact ⟨List.not_mem_nil, hcell _ hbar, hcell _ fun h => (hcount _ h).2 rfl,
      hcell _ fun h => (plain_of_mem_percentage h).2 rfl, List.not_mem_nil, by simp⟩
  rw [row?, hrow, List.splitOn_intercalate '|' hplain (by simp [cells])]
  simp only [cells, List.map_cons, List.map_nil, trim_cell htrim,
    trim_cell (trim_eq_self fun c hc => (hcount c hc).1)]
  rw [Growth.ofSymbol?_symbol, Decimal.ofDigits_ofNat]
  rfl

/-! ## Sections -/

theorem readHeading_heading (r : Report) (fileName : Option Text) (rest : List Text) :
    readHeading (heading r fileName ++ rest) =
      some ((r.language, shownFile? fileName), rest) := by
  cases hfile : shownFile? fileName with
  | none =>
    have hblank : value? "File" [] = none := rfl
    simp [heading, hfile, readHeading, value?_labelled, hblank]
  | some name => simp [heading, hfile, readHeading, value?_labelled]

theorem readSummary_summary (r : Report) (rest : List Text) :
    readSummary (summary r ++ rest) = some ((r.overall, r.functions.length), rest) := by
  cases hfunctions : r.functions with
  | nil =>
    simp [summary, hfunctions, readSummary, itemValue?_item, Growth.ofSymbol?_symbol,
      Decimal.ofDigits_ofNat]
  | cons f functions =>
    simp [summary, hfunctions, readSummary, itemValue?_item, Growth.ofSymbol?_symbol,
      Decimal.ofDigits_ofNat]

theorem readWarnings_warnings (r : Report) {rest : List Text}
    (hrest : rest.head? ≠ some "## Warnings".toList) :
    readWarnings (warnings r ++ rest) = (r.warnings, rest) := by
  have hstop : after? (item []) [] = none := rfl
  cases hwarnings : r.warnings with
  | nil =>
    have hnone : warnings r = [] := by simp [warnings, hwarnings]
    rw [hnone, List.nil_append, readWarnings, if_neg hrest]
  | cons first others =>
    have hsection : warnings r ++ rest =
        "## Warnings".toList :: [] :: ((first :: others).map item ++ [] :: rest) := by
      simp [warnings, hwarnings]
    rw [hsection, readWarnings, if_pos (by rfl), List.drop_succ_cons, List.drop_succ_cons,
      List.drop_zero, takeRead_map after?_item hstop]
    rfl

/-- The reasons are read back, also when there are none and their heading is left out. -/
theorem takeRead_reasons (reasons rest : List Text) :
    let explained := item "**Analysis Details:**".toList
    let behind := (if reasons.isEmpty then []
      else explained :: reasons.map fun reason => "  ".toList ++ item reason) ++ [] :: rest
    takeRead (after? ("  ".toList ++ item []))
        (if behind.head? = some explained then behind.drop 1 else behind) =
      (reasons, [] :: rest) := by
  intro explained behind
  have hitem : ∀ reason : Text,
      after? ("  ".toList ++ item []) ("  ".toList ++ item reason) = some reason :=
    fun reason => after?_eq_some_iff.2 (by simp [item])
  have hstop : after? ("  ".toList ++ item []) [] = none := rfl
  have hread := takeRead_map hitem hstop reasons rest
  cases reasons with
  | nil => exact hread
  | cons reason reasons => rwa [if_pos (by rfl)]

theorem readFunction_section (f : FunctionReport) (rest : List Text) :
    readFunction (functionSection f ++ rest) =
      some (⟨f.name, f.growth, f.first, f.last, f.rationale⟩, rest) := by
  have hname : (after? "### `".toList ("### `".toList ++ f.name ++ "`".toList)).map List.dropLast =
      some f.name := by
    rw [List.append_assoc, after?_eq_some_iff.2 rfl, Option.map_some]
    exact congrArg some List.dropLast_concat
  have hreasons := takeRead_reasons f.rationale rest
  have hsection : functionSection f ++ rest =
      ("### `".toList ++ f.name ++ "`".toList) :: []
        :: item (labelled "Complexity" f.growth.symbol)
        :: item (labelled "Confidence" (Decimal.percentage f.confidence))
        :: item (labelled "Lines"
          (Decimal.ofInt f.first ++ " - ".toList ++ Decimal.ofInt f.last))
        :: item (labelled "Description" f.growth.description)
        :: ((if f.rationale.isEmpty then []
          else item "**Analysis Details:**".toList
            :: f.rationale.map fun reason => "  ".toList ++ item reason) ++ [] :: rest) := by
    simp only [functionSection, List.cons_append, List.nil_append, List.append_assoc]
  rw [hsection, readFunction]
  simp only [hname, itemValue?_item, range?_lines, Growth.ofSymbol?_symbol, Option.bind_some]
  simp only [bind, Option.bind, pure, hreasons]
  rfl

/-- No section is taken for the list of warnings. -/
theorem head?_details (r : Report) : (details r).head? ≠ some "## Warnings".toList := by
  rw [details]
  split
  · simp
  · exact fun h => absurd (Option.some.inj h) (by decide)

theorem readDetails_details (r : Report) :
    readDetails r.functions.length (details r) =
      some ((r.distribution, r.functions.map fun f =>
        ⟨f.name, f.growth, f.first, f.last, f.rationale⟩), []) := by
  by_cases hnone : r.functions = []
  · have hdistribution : r.distribution = [] := Report.distribution_eq_nil_iff.2 hnone
    simp [details, readDetails, hnone, hdistribution]
  · have hfunctions := readMany_flatMap readFunction_section r.functions []
    let row : Growth × Nat → Text := fun entry =>
      distributionRow r.functions.length entry.1 entry.2
    have hrow : ∀ entry, row? (row entry) = some entry :=
      fun entry => row?_distributionRow r.functions.length entry.1 entry.2
    have hstop : row? [] = none := rfl
    have hrows := takeRead_map hrow hstop r.distribution
      ("## Function Analysis".toList :: [] :: r.functions.flatMap functionSection)
    have hdetails : details r =
        "## Complexity Distribution".toList :: [] :: "| Complexity | Count | Percentage |".toList
          :: "|------------|-------|------------|".toList
          :: (r.distribution.map row ++ [] :: "## Function Analysis".toList :: []
              :: r.functions.flatMap functionSection) := by
      simp [details, distribution, hnone, row]
    have hcount : r.functions.length ≠ 0 := by simpa using hnone
    rw [List.append_nil] at hfunctions
    rw [hdetails, readDetails, if_neg hcount]
    simp only [List.drop_succ_cons, List.drop_zero, hrows, hfunctions]
    rfl

/-! ## The whole text -/

theorem not_mem_labelled {label : String} {value : Text} (hlabel : '\n' ∉ label.toList)
    (hvalue : '\n' ∉ value) : '\n' ∉ labelled label value := by
  simp [labelled, hlabel, hvalue]

theorem not_mem_item {content : Text} (h : '\n' ∉ content) : '\n' ∉ item content := by
  simp [item, h]

theorem not_mem_ofNat (n : Nat) : '\n' ∉ Decimal.ofNat n := by
  intro h
  cases Decimal.isDigit_of_mem_ofNat h

theorem not_mem_ofInt (n : Int) : '\n' ∉ Decimal.ofInt n := by
  intro h
  cases isBlank_of_isNumeralChar (Json.isNumeralChar_of_mem_ofInt h)

theorem not_mem_percentage (share : Float) : '\n' ∉ Decimal.percentage share :=
  fun h => (plain_of_mem_percentage h).1 rfl

section

variable {r : Report}

theorem not_mem_heading {fileName : Option Text} (hlanguage : '\n' ∉ r.language)
    (hfile : ∀ name ∈ fileName, '\n' ∉ name) : ∀ line ∈ heading r fileName, '\n' ∉ line := by
  have hshown : ∀ line ∈ ((shownFile? fileName).map (labelled "File")).toList, '\n' ∉ line := by
    intro line hline
    obtain ⟨name, hname, rfl⟩ := Option.map_eq_some_iff.1 (Option.mem_toList.1 hline)
    exact not_mem_labelled (by decide) (hfile name (Option.eq_some_of_filter_eq_some hname))
  simp only [heading, List.forall_mem_append, List.forall_mem_cons]
  exact ⟨⟨⟨by decide, List.not_mem_nil, not_mem_labelled (by decide) hlanguage, by simp⟩, hshown⟩,
    List.not_mem_nil, by simp⟩

theorem not_mem_summary : ∀ line ∈ summary r, '\n' ∉ line := by
  have haverage : ∀ line ∈ (if r.functions.isEmpty then []
      else [item (labelled "Average Confidence" (Decimal.percentage r.averageConfidence))]),
      '\n' ∉ line := by
    split
    · simp
    · rw [List.forall_mem_singleton]
      exact not_mem_item (not_mem_labelled (by decide) (not_mem_percentage _))
  simp only [summary, List.forall_mem_append, List.forall_mem_cons]
  exact ⟨⟨⟨by decide, List.not_mem_nil,
    not_mem_item (not_mem_labelled (by decide) (symbol_plain _).2.2),
    not_mem_item (not_mem_labelled (by decide) (not_mem_ofNat _)), by simp⟩, haverage⟩,
    List.not_mem_nil, by simp⟩

theorem not_mem_warnings (h : ∀ warning ∈ r.warnings, '\n' ∉ warning) :
    ∀ line ∈ warnings r, '\n' ∉ line := by
  rw [warnings]
  split
  · simp
  · simp only [List.forall_mem_append, List.forall_mem_cons, List.forall_mem_map]
    exact ⟨⟨by decide, List.not_mem_nil, fun warning hw => not_mem_item (h warning hw)⟩,
      List.not_mem_nil, by simp⟩

theorem not_mem_distribution : ∀ line ∈ distribution r, '\n' ∉ line := by
  have hrow : ∀ total g count, '\n' ∉ distributionRow total g count := by
    intro total g count
    simp [distributionRow, (symbol_plain g).2.2, not_mem_ofNat, not_mem_percentage]
  simp only [distribution, List.forall_mem_append, List.forall_mem_cons, List.forall_mem_map]
  exact ⟨⟨⟨by decide, List.not_mem_nil, by decide, by decide, by simp⟩, fun _ _ => hrow _ _ _⟩,
    List.not_mem_nil, by simp⟩

theorem not_mem_section {f : FunctionReport} (hname : '\n' ∉ f.name)
    (hrationale : ∀ reason ∈ f.rationale, '\n' ∉ reason) :
    ∀ line ∈ functionSection f, '\n' ∉ line := by
  have hlines : '\n' ∉ Decimal.ofInt f.first ++ " - ".toList ++ Decimal.ofInt f.last := by
    simp [not_mem_ofInt]
  have hdescription : '\n' ∉ f.growth.description := by
    cases f.growth <;> decide
  have hreasons : ∀ line ∈ (if f.rationale.isEmpty then []
      else item "**Analysis Details:**".toList
        :: f.rationale.map fun reason => "  ".toList ++ item reason), '\n' ∉ line := by
    split
    · simp
    · simp only [List.forall_mem_cons, List.forall_mem_map]
      refine ⟨by decide, fun reason hr => ?_⟩
      simp [not_mem_item (hrationale reason hr)]
  simp only [functionSection, List.forall_mem_append, List.forall_mem_cons]
  refine ⟨⟨⟨by simp [hname], List.not_mem_nil, ?_, ?_, ?_, ?_, by simp⟩, hreasons⟩,
    List.not_mem_nil, by simp⟩
  · exact not_mem_item (not_mem_labelled (by decide) (symbol_plain _).2.2)
  · exact not_mem_item (not_mem_labelled (by decide) (not_mem_percentage _))
  · exact not_mem_item (not_mem_labelled (by decide) hlines)
  · exact not_mem_item (not_mem_labelled (by decide) hdescription)

theorem not_mem_details
    (h : ∀ f ∈ r.functions, '\n' ∉ f.name ∧ ∀ reason ∈ f.rationale, '\n' ∉ reason) :
    ∀ line ∈ details r, '\n' ∉ line := by
  rw [details]
  split
  · simp
  · simp only [List.forall_mem_append, List.forall_mem_cons, List.forall_mem_flatMap]
    exact ⟨not_mem_distribution, by decide, List.not_mem_nil,
      fun f hf => not_mem_section (h f hf).1 (h f hf).2⟩

/-- No line of the text holds a line feed when none of the texts that are inserted does. -/
theorem not_mem_of_mem_lines {fileName : Option Text} (hlanguage : '\n' ∉ r.language)
    (hfile : ∀ name ∈ fileName, '\n' ∉ name) (hwarnings : ∀ warning ∈ r.warnings, '\n' ∉ warning)
    (hfunctions : ∀ f ∈ r.functions, '\n' ∉ f.name ∧ ∀ reason ∈ f.rationale, '\n' ∉ reason) :
    ∀ line ∈ lines r fileName, '\n' ∉ line := by
  simp only [lines, List.forall_mem_append]
  exact ⟨⟨⟨not_mem_heading hlanguage hfile, not_mem_summary⟩, not_mem_warnings hwarnings⟩,
    not_mem_details hfunctions⟩

end

/-- One reader gives back of every report and every file name, none of whose texts holds a line
feed, what the Markdown shows of them. -/
theorem read_render_markdown (r : Report) (fileName : Option Text) (hlanguage : '\n' ∉ r.language)
    (hfile : ∀ name ∈ fileName, '\n' ∉ name) (hwarnings : ∀ warning ∈ r.warnings, '\n' ∉ warning)
    (hfunctions : ∀ f ∈ r.functions, '\n' ∉ f.name ∧ ∀ reason ∈ f.rationale, '\n' ∉ reason) :
    read (render r fileName) =
      some
        { language := r.language
          fileName := fileName.filter (!·.isEmpty)
          overall := r.overall
          warnings := r.warnings
          distribution := r.distribution
          functions := r.functions.map fun f =>
            { name := f.name
              growth := f.growth
              first := f.first
              last := f.last
              rationale := f.rationale } } := by
  have hplain := not_mem_of_mem_lines hlanguage hfile hwarnings hfunctions
  have hne : lines r fileName ≠ [] := by simp [lines, heading]
  have hlines : lines r fileName =
      heading r fileName ++ (summary r ++ (warnings r ++ details r)) := by
    simp [lines]
  rw [read, render, joinLines, List.splitOn_intercalate '\n' hplain hne, readLines, hlines]
  simp only [readHeading_heading, readSummary_summary, readWarnings_warnings r (head?_details r),
    readDetails_details, bind, Option.bind]
  rfl

/-- Texts that look like headings, labels and items, in every place where a text is inserted. -/
theorem read_render_markdown_marks :
    let f : FunctionReport :=
      ⟨"### `f`".toList, .linear, 0.9, ["- a".toList, [], "| b |".toList], -1, 0⟩
    let r : Report := ⟨.cubic, [f, f], "## Warnings".toList, [[], "## Summary".toList]⟩
    let fileName : Option Text := some "**File:** `x` #".toList
    '\n' ∉ r.language ∧ (∀ name ∈ fileName, '\n' ∉ name)
      ∧ (∀ warning ∈ r.warnings, '\n' ∉ warning)
      ∧ (∀ f ∈ r.functions, '\n' ∉ f.name ∧ ∀ reason ∈ f.rationale, '\n' ∉ reason)
      ∧ read (render r fileName) =
        some ⟨r.language, fileName, .cubic, r.warnings, [(.linear, 2)],
          [⟨f.name, .linear, -1, 0, f.rationale⟩, ⟨f.name, .linear, -1, 0, f.rationale⟩]⟩ := by
  intro f r fileName
  have hlanguage : '\n' ∉ r.language := by decide
  have hfile : ∀ name ∈ fileName, '\n' ∉ name := by decide
  have hwarnings : ∀ warning ∈ r.warnings, '\n' ∉ warning := by decide
  have hf : '\n' ∉ f.name ∧ ∀ reason ∈ f.rationale, '\n' ∉ reason := by decide
  have hfunctions : ∀ f ∈ r.functions, '\n' ∉ f.name ∧ ∀ reason ∈ f.rationale, '\n' ∉ reason := by
    simp only [r, List.forall_mem_cons]
    exact ⟨hf, hf, by simp⟩
  exact ⟨hlanguage, hfile, hwarnings, hfunctions,
    read_render_markdown r fileName hlanguage hfile hwarnings hfunctions⟩

end GrowthEstimate.Export.Markdown
