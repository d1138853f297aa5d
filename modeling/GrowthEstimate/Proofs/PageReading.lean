import Mathlib.Data.List.Forall2
import GrowthEstimate.Export.Html
import GrowthEstimate.Proofs.Distribution
import GrowthEstimate.Proofs.LineSplitting

/-!
# The page of a report read back

A reader of the page tells tags from text and keeps the text between a tag that opens an element
and the tag that closes it, with the entities undone.  It finds the texts that were inserted, and
none of them changes which tags the page has.

* `unescape_escape_append`: undoing the entities of an escaped text gives the text back;
* `Finds.append`, `finds_within`: what is found in two pieces of a page, and in one element;
* `elementTexts_render`: the texts of all elements of a page;
* `marks_inserted`, `flatMap_marks_map`: inserted texts add no mark, so only the number of rows
  counts;
* `marks_and_texts_of_render`: both for any two reports, and the badges as they stand.
-/

namespace GrowthEstimate.Export.Html

open Text (joinLines joinLines_cons_cons)

/-! ## Entities -/

/-- The text with each of the five entities replaced by its character. -/
def unescape : Text → Text
  | '&' :: 'a' :: 'm' :: 'p' :: ';' :: s => '&' :: unescape s
  | '&' :: 'l' :: 't' :: ';' :: s => '<' :: unescape s
  | '&' :: 'g' :: 't' :: ';' :: s => '>' :: unescape s
  | '&' :: '#' :: '3' :: '4' :: ';' :: s => '"' :: unescape s
  | '&' :: '#' :: '3' :: '9' :: ';' :: s => '\'' :: unescape s
  | c :: s => c :: unescape s
  | [] => []

theorem unescape_cons {c : Char} (h : c ≠ '&') (s : Text) :
    unescape (c :: s) = c :: unescape s := by
  rw [unescape]
  all_goals
    intros
    simp_all

theorem unescape_escape_append (s behind : Text) :
    unescape (escape s ++ behind) = s ++ unescape behind := by
  induction s with
  | nil => rfl
  | cons c s ih =>
    have hcons : escape (c :: s) = escapeChar c ++ escape s := List.flatMap_cons
    rw [hcons, List.append_assoc, List.cons_append, ← ih, escapeChar]
    split
    · next h => rw [eq_of_beq h]; rfl
    split
    · next h => rw [eq_of_beq h]; rfl
    split
    · next h => rw [eq_of_beq h]; rfl
    split
    · next h => rw [eq_of_beq h]; rfl
    split
    · next h => rw [eq_of_beq h]; rfl
    · next hamp _ _ _ _ => exact unescape_cons (by simpa using hamp) _

theorem unescape_escape (s : Text) : unescape (escape s) = s := by
  simpa [unescape] using unescape_escape_append s []

theorem unescape_append_of_plain {s : Text} (h : '&' ∉ s) (behind : Text) :
    unescape (s ++ behind) = s ++ unescape behind := by
  induction s with
  | nil => rfl
  | cons c s ih =>
    rw [List.mem_cons, not_or] at h
    rw [List.cons_append, unescape_cons (Ne.symm h.1), ih h.2, List.cons_append]

theorem unescape_of_plain {s : Text} (h : '&' ∉ s) : unescape s = s := by
  simpa [unescape] using unescape_append_of_plain h []

/-! ## The reader -/

/-- Where the reader stands, and whether the last tag opened an element; what has been read of the
text and of the tag is kept backwards. -/
inductive Place
  | text (opened : Bool) (read : Text)
  /-- Inside a tag, with the text in front of it. -/
  | tag (opened : Bool) (text read : Text)
  deriving DecidableEq

/-- The reader: its place, and the texts of the elements behind it, the last one first. -/
structure Scan where
  place : Place
  texts : List Text

namespace Scan

def step (s : Scan) (c : Char) : Scan :=
  match s.place with
  | .text opened read =>
    if c == '<' then ⟨.tag opened read [], s.texts⟩ else ⟨.text opened (c :: read), s.texts⟩
  | .tag opened text read =>
    if c == '>' then
      let closes := read.getLast? == some '/'
      ⟨.text (!closes) [], if closes && opened then unescape text.reverse :: s.texts else s.texts⟩
    else ⟨.tag opened text (c :: read), s.texts⟩

def run (s : Scan) (page : Text) : Scan := page.foldl step s

theorem eq_of_place {s : Scan} {place : Place} (h : s.place = place) : s = ⟨place, s.texts⟩ := by
  cases h
  rfl

theorem run_append (s : Scan) (front behind : Text) :
    s.run (front ++ behind) = (s.run front).run behind := List.foldl_append

theorem run_cons (s : Scan) (c : Char) (behind : Text) :
    s.run (c :: behind) = (s.step c).run behind := rfl

end Scan

/-- The texts of the elements of a page that hold no other element, in order. -/
def elementTexts (page : Text) : List Text := (Scan.run ⟨.text false [], []⟩ page).texts.reverse

/-! ## What is found in a piece of a page -/

/-- Reading the piece, from outside a tag, finds the texts and ends outside a tag; `before` and
`behind` say whether the last tag there is one that opens an element. -/
def Finds (before : Bool) (piece : Text) (found : List Text) (behind : Bool) : Prop :=
  ∀ read texts, ∃ read',
    Scan.run ⟨.text before read, texts⟩ piece = ⟨.text behind read', found.reverse ++ texts⟩

theorem Finds.append {a b c : Bool} {s t : Text} {found found' : List Text}
    (hs : Finds a s found b) (ht : Finds b t found' c) : Finds a (s ++ t) (found ++ found') c := by
  intro read texts
  obtain ⟨mid, hmid⟩ := hs read texts
  obtain ⟨last, hlast⟩ := ht mid (found.reverse ++ texts)
  refine ⟨last, ?_⟩
  rw [Scan.run_append, hmid, hlast]
  simp

theorem finds_nil (a : Bool) : Finds a [] [] a := fun read _ => ⟨read, rfl⟩

theorem finds_newline (a : Bool) : Finds a ['\n'] [] a := fun read _ => ⟨'\n' :: read, rfl⟩

theorem run_text {s : Text} (h : ∀ c ∈ s, isDelimiter c = false) (opened : Bool) (read : Text)
    (texts : List Text) :
    Scan.run ⟨.text opened read, texts⟩ s = ⟨.text opened (s.reverse ++ read), texts⟩ := by
  induction s generalizing read with
  | nil => rfl
  | cons c s ih =>
    have hc : c ≠ '<' := by
      rintro rfl
      exact absurd (h '<' List.mem_cons_self) (by decide)
    have hstep : Scan.step ⟨.text opened read, texts⟩ c = ⟨.text opened (c :: read), texts⟩ := by
      simp [Scan.step, hc]
    rw [Scan.run_cons, hstep, ih fun d hd => h d (List.mem_cons_of_mem _ hd)]
    simp

/-- The text of an element without other elements; `front` stands in it behind the opening tag. -/
theorem finds_within {a : Bool} {openingTag closingTag : String} {front inner : Text}
    (hopen : ∀ read texts, Scan.run ⟨.text a read, texts⟩ openingTag.toList
      = ⟨.text true front.reverse, texts⟩)
    (hclose : ∀ read texts, Scan.run ⟨.text true read, texts⟩ closingTag.toList
      = ⟨.text false [], unescape read.reverse :: texts⟩)
    (hinner : ∀ c ∈ inner, isDelimiter c = false) :
    Finds a (within openingTag inner closingTag) [unescape (front ++ inner)] false := by
  intro read texts
  refine ⟨[], ?_⟩
  rw [within, Scan.run_append, Scan.run_append, hopen, run_text hinner, hclose]
  simp

theorem Finds.within {a : Bool} {openingTag closingTag : String} {inner : Text} {found : List Text}
    (hinner : Finds true inner found false)
    (hopen : Finds a openingTag.toList [] true) (hclose : Finds false closingTag.toList [] false) :
    Finds a (within openingTag inner closingTag) found false := by
  have h := (hopen.append hinner).append hclose
  simpa [Html.within] using h

/-! ## Elements and lines -/

def IsElement (piece text : Text) : Prop := ∀ a, Finds a piece [text] false

set_option maxRecDepth 4000 in
theorem isElement_badge (g : Growth) : IsElement (badge g) g.symbol := by
  intro a read texts
  cases g <;> exact ⟨[], rfl⟩

def IsPlain (s : Text) : Prop := ∀ c ∈ s, isDelimiter c = false ∧ c ≠ '&'

theorem IsPlain.unescape_eq {s : Text} (h : IsPlain s) : unescape s = s :=
  unescape_of_plain fun hamp => (h '&' hamp).2 rfl

theorem isPlain_of_isDigit {c : Char} (h : c.isDigit = true) : isDelimiter c = false ∧ c ≠ '&' := by
  have hne : ∀ d : Char, d.isDigit = false → c ≠ d := by
    rintro d hd rfl
    rw [hd] at h
    cases h
  simp [isDelimiter, hne '<' rfl, hne '>' rfl, hne '"' rfl, hne '\'' rfl, hne '&' rfl]

theorem isPlain_ofNat (n : Nat) : IsPlain (Decimal.ofNat n) := fun _ hc =>
  isPlain_of_isDigit (Decimal.isDigit_of_mem_ofNat hc)

theorem isPlain_ofInt (n : Int) : IsPlain (Decimal.ofInt n) := by
  cases n with
  | ofNat n => exact isPlain_ofNat n
  | negSucc n =>
    intro c hc
    rcases List.mem_cons.1 hc with rfl | hc
    · decide
    · exact isPlain_ofNat _ c hc

section

variable {openingTag closingTag : String}
  (hopen : ∀ a read texts, Scan.run ⟨.text a read, texts⟩ openingTag.toList
    = ⟨.text true [], texts⟩)
  (hclose : ∀ read texts, Scan.run ⟨.text true read, texts⟩ closingTag.toList
    = ⟨.text false [], unescape read.reverse :: texts⟩)

include hopen hclose

theorem isElement_escape (s : Text) : IsElement (within openingTag (escape s) closingTag) s := by
  intro a
  have h : Finds a (within openingTag (escape s) closingTag) [unescape ([] ++ escape s)] false :=
    finds_within (hopen a) hclose fun _ => not_delimiter_of_mem_escape
  rwa [List.nil_append, unescape_escape] at h

theorem isElement_plain {s : Text} (hs : IsPlain s) :
    IsElement (within openingTag s closingTag) s := by
  intro a
  have h : Finds a (within openingTag s closingTag) [unescape ([] ++ s)] false :=
    finds_within (hopen a) hclose fun c hc => (hs c hc).1
  rwa [List.nil_append, hs.unescape_eq] at h

end

theorem IsElement.cell {piece text : Text} (h : IsElement piece text) :
    IsElement (cell piece) text := fun _ =>
  (h true).within (fun _ _ => ⟨[], rfl⟩) fun _ _ => ⟨[], rfl⟩

theorem finds_row {cells texts : List Text} (h : List.Forall₂ IsElement cells texts)
    (hne : cells ≠ []) (a : Bool) : Finds a (row cells) texts false := by
  have hrest : ∀ {cells texts : List Text}, List.Forall₂ IsElement cells texts →
      Finds false cells.flatten texts false := by
    intro cells texts h
    induction h with
    | nil => exact finds_nil false
    | cons hcell _ ih => exact (hcell false).append ih
  refine Finds.within ?_ (fun _ _ => ⟨[], rfl⟩) fun _ _ => ⟨[], rfl⟩
  cases h with
  | nil => exact absurd rfl hne
  | cons hcell hcells => exact (hcell true).append (hrest hcells)

def ended (lines : List Text) : Text := lines.flatMap (· ++ ['\n'])

theorem ended_append (lines rest : List Text) : ended (lines ++ rest) = ended lines ++ ended rest :=
  List.flatMap_append

theorem joinLines_newline {lines : List Text} (h : lines ≠ []) :
    joinLines lines ++ ['\n'] = ended lines := by
  induction lines with
  | nil => exact absurd rfl h
  | cons line rest ih =>
    cases rest with
    | nil => simp [joinLines, ended]
    | cons next rest =>
      have hended : ended (line :: next :: rest) = line ++ ['\n'] ++ ended (next :: rest) :=
        List.flatMap_cons
      rw [joinLines_cons_cons, hended, ← ih (List.cons_ne_nil _ _), List.append_assoc]

theorem finds_no_lines (a : Bool) : Finds a (ended []) [] a := finds_nil a

theorem Finds.line {a b c : Bool} {line : Text} {rest : List Text} {found found' : List Text}
    (hline : Finds a line found b) (hrest : Finds b (ended rest) found' c) :
    Finds a (ended (line :: rest)) (found ++ found') c := by
  have h := (hline.append (finds_newline b)).append hrest
  simpa [ended] using h

theorem Finds.lines {a b c : Bool} {lines rest : List Text} {found found' : List Text}
    (hlines : Finds a (ended lines) found b) (hrest : Finds b (ended rest) found' c) :
    Finds a (ended (lines ++ rest)) (found ++ found') c := by
  rw [ended_append]
  exact hlines.append hrest

/-- Some lines of one kind, each of which holds whole elements. -/
theorem finds_map {α : Type} {write : α → Text} {texts : α → List Text}
    (h : ∀ x a, Finds a (write x) (texts x) false) {items : List α} (hne : items ≠ []) (a : Bool) :
    Finds a (ended (items.map write)) (items.flatMap texts) false := by
  induction items generalizing a with
  | nil => exact absurd rfl hne
  | cons x rest ih =>
    rw [List.map_cons, List.flatMap_cons]
    refine (h x a).line ?_
    cases rest with
    | nil => exact finds_nil false
    | cons y rest => exact ih (List.cons_ne_nil _ _) false

/-! ## The parts of the page -/

/-- The file name behind the language, when one is shown. -/
def shownFile (fileName : Option Text) : Text :=
  (fileName.filter (!·.isEmpty)).elim [] (" | File: ".toList ++ ·)

theorem unescape_fileNote (fileName : Option Text) :
    unescape (fileNote fileName) = shownFile fileName := by
  rw [fileNote, shownFile]
  cases fileName.filter (!·.isEmpty) with
  | none => rfl
  | some name =>
    have hplain : '&' ∉ " | File: ".toList := by decide
    simp only [Option.elim_some]
    rw [unescape_append_of_plain hplain, unescape_escape]

theorem not_delimiter_of_mem_fileNote {fileName : Option Text} {c : Char}
    (h : c ∈ fileNote fileName) : isDelimiter c = false := by
  rw [fileNote] at h
  split at h
  · rcases List.mem_append.1 h with hfront | hname
    · have hplain : ∀ c ∈ " | File: ".toList, isDelimiter c = false := by simp [isDelimiter]
      exact hplain c hfront
    · exact not_delimiter_of_mem_escape hname
  · cases h

def headerTexts (r : Report) (fileName : Option Text) : List Text :=
  [ "Algorithm Complexity Analysis Report".toList,
    "Language: ".toList ++ r.language ++ shownFile fileName ]

theorem finds_header (r : Report) (fileName : Option Text) (a : Bool) :
    Finds a (ended (header r fileName)) (headerTexts r fileName) false := by
  have hdelimiter : ∀ c ∈ escape r.language ++ fileNote fileName, isDelimiter c = false := by
    intro c hc
    rcases List.mem_append.1 hc with hc | hc
    · exact not_delimiter_of_mem_escape hc
    · exact not_delimiter_of_mem_fileNote hc
  have hplain : '&' ∉ "Language: ".toList := by decide
  have hmeta : Finds false
      (within "<div class=\"meta\">Language: " (escape r.language ++ fileNote fileName) "</div>")
      [unescape ("Language: ".toList ++ (escape r.language ++ fileNote fileName))] false :=
    finds_within (fun _ _ => rfl) (fun _ _ => rfl) hdelimiter
  rw [unescape_append_of_plain hplain, unescape_escape_append, unescape_fileNote,
    ← List.append_assoc] at hmeta
  have hopen : Finds a "<div class=\"header\">".toList [] true := fun _ _ => ⟨[], rfl⟩
  have htitle : Finds true "<h1>Algorithm Complexity Analysis Report</h1>".toList
      ["Algorithm Complexity Analysis Report".toList] false := fun _ _ => ⟨[], rfl⟩
  have hclose : Finds false "</div>".toList [] false := fun _ _ => ⟨[], rfl⟩
  exact hopen.line (htitle.line (hmeta.line (hclose.line (finds_no_lines false))))

def summaryTexts (r : Report) : List Text :=
  [ "Overall Complexity".toList, r.overall.symbol, r.overall.description,
    "Functions Analyzed".toList, Decimal.ofNat r.functions.length,
    "Average Confidence".toList, Decimal.percentage r.averageConfidence ]

theorem IsElement.cardValue {piece text : Text} (h : IsElement piece text) :
    IsElement (cardValue piece) text := fun _ =>
  (h true).within (fun _ _ => ⟨[], rfl⟩) fun _ _ => ⟨[], rfl⟩

theorem finds_summary (r : Report) (a : Bool) :
    Finds a (ended (summary r)) (summaryTexts r) false := by
  have hgrid : Finds a "<div class=\"summary-grid\">".toList [] true := fun _ _ => ⟨[], rfl⟩
  have hoverall : Finds true
      "<div class=\"summary-card\"><h3>Overall Complexity</h3>".toList
      ["Overall Complexity".toList] false := fun _ _ => ⟨[], rfl⟩
  have hbadge := (isElement_badge r.overall).cardValue false
  have hdescription : IsElement (within "<div>" (escape r.overall.description) "</div></div>")
      r.overall.description := isElement_escape (fun _ _ _ => rfl) (fun _ _ => rfl) _
  have hfunctions : Finds false
      "<div class=\"summary-card\"><h3>Functions Analyzed</h3>".toList
      ["Functions Analyzed".toList] false := fun _ _ => ⟨[], rfl⟩
  have hcount : IsElement (cardValue (Decimal.ofNat r.functions.length))
      (Decimal.ofNat r.functions.length) :=
    isElement_plain (fun _ _ _ => rfl) (fun _ _ => rfl) (isPlain_ofNat _)
  have haverage : Finds false
      "<div class=\"summary-card\"><h3>Average Confidence</h3>".toList
      ["Average Confidence".toList] false := fun _ _ => ⟨[], rfl⟩
  have hshare : IsElement (cardValue (escape (Decimal.percentage r.averageConfidence)))
      (Decimal.percentage r.averageConfidence) :=
    isElement_escape (fun _ _ _ => rfl) (fun _ _ => rfl) _
  have hclose : Finds false "</div>".toList [] false := fun _ _ => ⟨[], rfl⟩
  exact hgrid.line (hoverall.line (hbadge.line ((hdescription false).line (hfunctions.line
    (((hcount false).append hclose).line (haverage.line (((hshare false).append hclose).line
      (hclose.line (finds_no_lines false)))))))))

def warningTexts (r : Report) : List Text :=
  if r.warnings.isEmpty then [] else "Warnings".toList :: r.warnings

theorem finds_warnings (r : Report) : Finds false (ended (warnings r)) (warningTexts r) false := by
  rw [warnings, warningTexts]
  split
  · exact finds_nil false
  · next hne =>
    have hitem (w : Text) : IsElement (within "<li>" (escape w) "</li>") w :=
      isElement_escape (fun _ _ _ => rfl) (fun _ _ => rfl) w
    have htitle : Finds false "<div class=\"section warnings\"><h3>Warnings</h3>".toList
        ["Warnings".toList] false := fun _ _ => ⟨[], rfl⟩
    have hopen : Finds false "<ul>".toList [] true := fun _ _ => ⟨[], rfl⟩
    have hitems := finds_map hitem (by simpa using hne) true
    have hend : Finds false "</ul>".toList [] false := fun _ _ => ⟨[], rfl⟩
    have hclose : Finds false "</div>".toList [] false := fun _ _ => ⟨[], rfl⟩
    have h := ((htitle.line (hopen.line (finds_no_lines true))).lines hitems).lines
      (hend.line (hclose.line (finds_no_lines false)))
    simpa using h

def distributionTexts (total : Nat) (g : Growth) (count : Nat) : List Text :=
  [ g.symbol, Decimal.ofNat count,
    Decimal.percentage (Float.ofNat count / Float.ofNat total) ]

theorem finds_distributionRow (total : Nat) (g : Growth) (count : Nat) (a : Bool) :
    Finds a (distributionRow total g count) (distributionTexts total g count) false := by
  refine finds_row (.cons ?_ (.cons ?_ (.cons ?_ .nil))) (List.cons_ne_nil _ _) a
  · exact (isElement_badge g).cell
  · exact isElement_plain (fun _ _ _ => rfl) (fun _ _ => rfl) (isPlain_ofNat count)
  · exact isElement_escape (fun _ _ _ => rfl) (fun _ _ => rfl) _

def functionTexts (f : FunctionReport) : List Text :=
  [ f.name, f.growth.symbol, Decimal.percentage f.confidence,
    Decimal.ofInt f.first ++ '-' :: Decimal.ofInt f.last, "; ".toList.intercalate f.rationale ]

theorem finds_functionRow (f : FunctionReport) (a : Bool) :
    Finds a (functionRow f) (functionTexts f) false := by
  have hrange : IsPlain (Decimal.ofInt f.first ++ '-' :: Decimal.ofInt f.last) := by
    intro c hc
    rw [List.mem_append, List.mem_cons] at hc
    rcases hc with hc | rfl | hc
    · exact isPlain_ofInt _ c hc
    · decide
    · exact isPlain_ofInt _ c hc
  refine finds_row (.cons ?_ (.cons ?_ (.cons ?_ (.cons ?_ (.cons ?_ .nil)))))
    (List.cons_ne_nil _ _) a
  · exact (isElement_escape (fun _ _ _ => rfl) (fun _ _ => rfl) f.name).cell
  · exact (isElement_badge f.growth).cell
  · exact isElement_escape (fun _ _ _ => rfl) (fun _ _ => rfl) _
  · exact isElement_plain (fun _ _ _ => rfl) (fun _ _ => rfl) hrange
  · exact isElement_escape (fun _ _ _ => rfl) (fun _ _ => rfl) _

/-- A section with a title and column names that hold no markup of their own. -/
theorem finds_tableSection {title columns : String} {names found rows : List Text}
    (htitle : ∀ c ∈ title.toList, isDelimiter c = false ∧ c ≠ '&')
    (hcolumns : Finds true columns.toList names false)
    (hrows : Finds true (ended rows) found false) :
    Finds false (ended (tableSection title columns rows)) (title.toList :: names ++ found)
      false := by
  have hheading : IsElement (within "<div class=\"section\"><h3>" title.toList "</h3>")
      title.toList := isElement_plain (fun _ _ _ => rfl) (fun _ _ => rfl) htitle
  have hopen : Finds false "<table>".toList [] true := fun _ _ => ⟨[], rfl⟩
  have hnames : Finds true (within "<thead><tr>" columns.toList "</tr></thead>") names false :=
    hcolumns.within (fun _ _ => ⟨[], rfl⟩) fun _ _ => ⟨[], rfl⟩
  have hbody : Finds false "<tbody>".toList [] true := fun _ _ => ⟨[], rfl⟩
  have hclose : ∀ tag ∈ ["</tbody>", "</table>", "</div>"].map String.toList,
      Finds false tag [] false := by
    simp only [List.map_cons, List.map_nil, List.forall_mem_cons]
    exact ⟨fun _ _ => ⟨[], rfl⟩, fun _ _ => ⟨[], rfl⟩, fun _ _ => ⟨[], rfl⟩, by simp⟩
  have hend : Finds false (ended (["</tbody>", "</table>", "</div>"].map String.toList)) [] false :=
    (hclose _ (by simp)).line ((hclose _ (by simp)).line ((hclose _ (by simp)).line
      (finds_no_lines false)))
  have h := (((hheading false).line (hopen.line (hnames.line (hbody.line
    (finds_no_lines true))))).lines hrows).lines hend
  simpa [tableSection] using h

def detailTexts (r : Report) : List Text :=
  if r.functions.isEmpty then ["No functions found for analysis".toList]
  else
    ["Complexity Distribution", "Complexity", "Count", "Percentage"].map String.toList
      ++ r.distribution.flatMap (fun (g, count) => distributionTexts r.functions.length g count)
      ++ ["Function Analysis Details", "Function", "Complexity", "Confidence", "Lines",
        "Details"].map String.toList
      ++ r.functions.flatMap functionTexts

set_option maxRecDepth 1000 in
theorem finds_details (r : Report) : Finds false (ended (details r)) (detailTexts r) false := by
  rw [details, detailTexts]
  split
  · have hnone : Finds false
        "<div class=\"section\"><h3>No functions found for analysis</h3></div>".toList
        ["No functions found for analysis".toList] false := fun _ _ => ⟨[], rfl⟩
    exact hnone.line (finds_no_lines false)
  · next hne =>
    have hfunctions : r.functions ≠ [] := by simpa using hne
    have hclasses : r.distribution ≠ [] := mt Report.distribution_eq_nil_iff.1 hfunctions
    have hdistribution := finds_map (fun (row : Growth × Nat) a =>
      finds_distributionRow r.functions.length row.1 row.2 a) hclasses true
    have hrows := finds_map finds_functionRow hfunctions true
    have hshares : Finds true "<th>Complexity</th><th>Count</th><th>Percentage</th>".toList
        (["Complexity", "Count", "Percentage"].map String.toList) false := fun _ _ => ⟨[], rfl⟩
    have hcolumns : Finds true
        "<th>Function</th><th>Complexity</th><th>Confidence</th><th>Lines</th><th>Details</th>".toList
        (["Function", "Complexity", "Confidence", "Lines", "Details"].map String.toList) false :=
      fun _ _ => ⟨[], rfl⟩
    have htitle : ∀ c ∈ "Complexity Distribution".toList, isDelimiter c = false ∧ c ≠ '&' := by
      simp [isDelimiter]
    have htitle' : ∀ c ∈ "Function Analysis Details".toList, isDelimiter c = false ∧ c ≠ '&' := by
      simp [isDelimiter]
    have h := (finds_tableSection htitle hshares hdistribution).lines
      (finds_tableSection htitle' hcolumns hrows)
    simpa using h

/-- A line feed at its end changes nothing about what is found in a page. -/
theorem elementTexts_newline (page : Text) : elementTexts (page ++ ['\n']) = elementTexts page := by
  have hstep : ∀ s : Scan, (s.step '\n').texts = s.texts := by
    rintro ⟨place, texts⟩
    cases place <;> rfl
  rw [elementTexts, Scan.run_append, elementTexts]
  exact congrArg List.reverse (hstep _)

theorem map_toList_of_forall₂ {strings : List String} {lines : List Text}
    (h : List.Forall₂ (fun s line => s = String.ofList line) strings lines) :
    strings.map String.toList = lines := by
  induction h with
  | nil => rfl
  | cons hs _ ih => rw [List.map_cons, ih, hs, String.toList_ofList]

theorem place_opening :
    (Scan.run ⟨.text false [], []⟩ (ended opening)).place = .text true ['\n'] := by
  -- The lines are first turned into lists of characters: to decode them is what takes the time.
  rw [opening, map_toList_of_forall₂]
  rotate_left 1
  · repeat' constructor
  decide +kernel

theorem elementTexts_render (r : Report) (fileName : Option Text) :
    elementTexts (render r fileName) =
      elementTexts (joinLines opening)
        ++ (headerTexts r fileName ++ (summaryTexts r ++ (warningTexts r ++ detailTexts r))) := by
  have hopening : Scan.run ⟨.text false [], []⟩ (ended opening) =
      ⟨.text true ['\n'], (elementTexts (ended opening)).reverse⟩ := by
    rw [elementTexts, List.reverse_reverse]
    exact Scan.eq_of_place place_opening
  have hclosing : Finds false (ended closing) [] false := fun _ _ => ⟨_, rfl⟩
  have hrest := (finds_header r fileName true).lines ((finds_summary r false).lines
    ((finds_warnings r).lines ((finds_details r).lines hclosing)))
  obtain ⟨read, hread⟩ := hrest ['\n'] (elementTexts (ended opening)).reverse
  have hlines : render r fileName ++ ['\n'] = ended opening
      ++ ended (header r fileName ++ (summary r ++ (warnings r ++ (details r ++ closing)))) := by
    have hne :
        opening ++ header r fileName ++ summary r ++ warnings r ++ details r ++ closing ≠ [] :=
      List.append_ne_nil_of_right_ne_nil _ (List.cons_ne_nil _ _)
    rw [render, joinLines_newline hne, ← ended_append]
    simp only [List.append_assoc]
  have hfirst : elementTexts (ended opening) = elementTexts (joinLines opening) := by
    have hne : opening ≠ [] := List.cons_ne_nil _ _
    rw [← joinLines_newline hne, elementTexts_newline]
  rw [← elementTexts_newline, hlines, elementTexts, Scan.run_append, hopening, hread, ← hfirst]
  simp

/-! ## The characters that delimit markup -/

/-- The characters of a text that delimit markup and the values of attributes, in order. -/
def marks (s : Text) : Text := s.filter isDelimiter

theorem marks_append (s t : Text) : marks (s ++ t) = marks s ++ marks t := by
  simp [marks]

theorem marks_eq_nil {s : Text} (h : ∀ c ∈ s, isDelimiter c = false) : marks s = [] := by
  simpa [marks, List.filter_eq_nil_iff] using h

theorem marks_escape (s : Text) : marks (escape s) = [] :=
  marks_eq_nil fun _ => not_delimiter_of_mem_escape

theorem marks_within (openingTag closingTag : String) (inner : Text) :
    marks (within openingTag inner closingTag) =
      marks openingTag.toList ++ marks inner ++ marks closingTag.toList := by
  rw [within, marks_append, marks_append]

/-- Two escaped texts add no marks to what stands around them. -/
theorem marks_inserted (front s middle t behind : Text) :
    marks (front ++ escape s ++ middle ++ escape t ++ behind) =
      marks front ++ marks middle ++ marks behind := by
  simp only [marks_append, marks_escape, List.append_nil]

/-- The colour and the symbol of a class add no marks to its badge. -/
theorem marks_badge (g g' : Growth) : marks (badge g) = marks (badge g') :=
  (marks_inserted _ _ _ _ _).trans (marks_inserted _ _ _ _ _).symm

theorem marks_cell (inner : Text) :
    marks (cell inner) = marks "<td>".toList ++ marks inner ++ marks "</td>".toList := by
  rw [cell, marks_within]

theorem marks_joinLines (lines : List Text) : marks (joinLines lines) = lines.flatMap marks := by
  induction lines with
  | nil => rfl
  | cons line rest ih =>
    cases rest with
    | nil => simp [joinLines]
    | cons next rest =>
      have hfeed : marks ['\n'] = [] := rfl
      rw [joinLines_cons_cons, marks_append, marks_append, hfeed, ih, List.append_nil]
      rfl

/-- Rows of one kind have the same marks, so only their number counts. -/
theorem flatMap_marks_map {α : Type} {write : α → Text}
    (h : ∀ x y, marks (write x) = marks (write y)) {items items' : List α}
    (hlength : items.length = items'.length) :
    (items.map write).flatMap marks = (items'.map write).flatMap marks := by
  induction items generalizing items' with
  | nil => rw [List.length_eq_zero_iff.1 hlength.symm]
  | cons x rest ih =>
    cases items' with
    | nil => cases hlength
    | cons y rest' =>
      simp only [List.map_cons, List.flatMap_cons]
      rw [h x y, ih (Nat.succ.inj hlength)]

theorem marks_ofNat (n : Nat) : marks (Decimal.ofNat n) = [] :=
  marks_eq_nil fun c hc => (isPlain_ofNat n c hc).1

theorem marks_distributionRow (total total' : Nat) (row row' : Growth × Nat) :
    marks (distributionRow total row.1 row.2) = marks (distributionRow total' row'.1 row'.2) := by
  simp only [distributionRow, Html.row, marks_within, marks_cell, List.flatten_cons,
    List.flatten_nil, marks_append, marks_escape, marks_ofNat, marks_badge row.1 row'.1]

theorem marks_functionRow (f f' : FunctionReport) :
    marks (functionRow f) = marks (functionRow f') := by
  have hrange : ∀ f : FunctionReport,
      marks (Decimal.ofInt f.first ++ '-' :: Decimal.ofInt f.last) = [] := by
    intro f
    apply marks_eq_nil
    intro c hc
    rw [List.mem_append, List.mem_cons] at hc
    rcases hc with hc | rfl | hc
    · exact (isPlain_ofInt _ c hc).1
    · decide
    · exact (isPlain_ofInt _ c hc).1
  simp only [functionRow, row, marks_within, marks_cell, List.flatten_cons, List.flatten_nil,
    marks_append, marks_escape, hrange, marks_badge f.growth f'.growth]

theorem flatMap_marks_header (r r' : Report) (fileName fileName' : Option Text) :
    (header r fileName).flatMap marks = (header r' fileName').flatMap marks := by
  have hnote (fileName : Option Text) : marks (fileNote fileName) = [] :=
    marks_eq_nil fun _ => not_delimiter_of_mem_fileNote
  simp only [header, List.flatMap_cons, marks_within, marks_append, marks_escape, hnote]

theorem flatMap_marks_summary (r r' : Report) :
    (summary r).flatMap marks = (summary r').flatMap marks := by
  simp only [summary, cardValue, List.flatMap_cons, marks_within, marks_append, marks_escape,
    marks_ofNat, marks_badge r.overall r'.overall]

theorem flatMap_marks_warnings {r r' : Report} (h : r.warnings.length = r'.warnings.length) :
    (warnings r).flatMap marks = (warnings r').flatMap marks := by
  have hempty : r.warnings.isEmpty = r'.warnings.isEmpty := by
    rw [Bool.eq_iff_iff, List.isEmpty_iff_length_eq_zero, List.isEmpty_iff_length_eq_zero, h]
  have hitems := flatMap_marks_map (fun w w' : Text => by
    simp only [marks_within, marks_escape] :
      ∀ w w' : Text, marks (within "<li>" (escape w) "</li>")
        = marks (within "<li>" (escape w') "</li>")) h
  rw [warnings, warnings, hempty]
  split
  · rfl
  · simp only [List.flatMap_append, hitems]

theorem flatMap_marks_tableSection (title columns : String) {rows rows' : List Text}
    (h : rows.flatMap marks = rows'.flatMap marks) :
    (tableSection title columns rows).flatMap marks =
      (tableSection title columns rows').flatMap marks := by
  rw [tableSection, tableSection]
  simp only [List.flatMap_append, h]

theorem flatMap_marks_details {r r' : Report}
    (hfunctions : r.functions.length = r'.functions.length)
    (hclasses : r.distribution.length = r'.distribution.length) :
    (details r).flatMap marks = (details r').flatMap marks := by
  have hempty : r.functions.isEmpty = r'.functions.isEmpty := by
    rw [Bool.eq_iff_iff, List.isEmpty_iff_length_eq_zero, List.isEmpty_iff_length_eq_zero,
      hfunctions]
  rw [details, details, hempty, hfunctions]
  split
  · rfl
  · rw [List.flatMap_append, List.flatMap_append]
    exact congrArg₂ _
      (flatMap_marks_tableSection _ _ (flatMap_marks_map (marks_distributionRow _ _) hclasses))
      (flatMap_marks_tableSection _ _ (flatMap_marks_map marks_functionRow hfunctions))

/-! ## Badges -/

theorem escape_color (g : Growth) : escape g.color = g.color := by cases g <;> decide +kernel

theorem escape_symbol (g : Growth) : escape g.symbol = g.symbol := by cases g <;> decide +kernel

/-- A badge with its colour and its symbol as they are. -/
theorem badge_eq (g : Growth) :
    badge g = "<span class=\"complexity-badge\" style=\"background-color: ".toList ++ g.color
      ++ "\">".toList ++ g.symbol ++ "</span>".toList := by
  unfold badge
  simp only [escape_color, escape_symbol]

theorem badge_infix_functionRow (f : FunctionReport) : badge f.growth <:+: functionRow f := by
  have hcell : badge f.growth <:+: cell (badge f.growth) := ⟨_, _, rfl⟩
  have hcells (front : Text) (behind : List Text) :
      cell (badge f.growth) <:+: row (front :: cell (badge f.growth) :: behind) := by
    refine ⟨"<tr>".toList ++ front, behind.flatten ++ "</tr>".toList, ?_⟩
    simp [row, within]
  exact hcell.trans (hcells _ _)

theorem infix_joinLines {lines : List Text} {line : Text} (h : line ∈ lines) :
    line <:+: joinLines lines := by
  induction lines with
  | nil => cases h
  | cons first rest ih =>
    cases rest with
    | nil =>
      have hsingle : joinLines [first] = first := List.intercalate_singleton
      exact ⟨[], [], by simp [List.mem_singleton.1 h, hsingle]⟩
    | cons next rest =>
      rw [joinLines_cons_cons]
      rcases List.mem_cons.1 h with rfl | h
      · exact ⟨[], ['\n'] ++ joinLines (next :: rest), by simp⟩
      · exact (ih h).trans (List.suffix_append _ _).isInfix

theorem infix_render {r : Report} {fileName : Option Text} {piece line : Text}
    (hpiece : piece <:+: line) (hline : line ∈ summary r ∨ line ∈ details r) :
    piece <:+: render r fileName := by
  refine hpiece.trans (infix_joinLines ?_)
  simp only [List.mem_append]
  rcases hline with h | h
  · exact .inl (.inl (.inl (.inr h)))
  · exact .inl (.inr h)

/-- The badge of the worst class, and that of each function's class. -/
theorem badge_infix_render {r : Report} {fileName : Option Text} {g : Growth}
    (h : g = r.overall ∨ ∃ f ∈ r.functions, f.growth = g) : badge g <:+: render r fileName := by
  rcases h with rfl | ⟨f, hf, rfl⟩
  · have hline : cardValue (badge r.overall) ∈ summary r := .tail _ (.tail _ (.head _))
    exact infix_render ⟨_, _, rfl⟩ (.inl hline)
  · refine infix_render (badge_infix_functionRow f) (.inr ?_)
    have hrow : functionRow f ∈ r.functions.map functionRow := List.mem_map_of_mem hf
    have hne : r.functions.isEmpty = false := by
      simpa using List.ne_nil_of_mem hf
    rw [details, hne]
    exact List.mem_append_right _ (List.mem_append_left _ (List.mem_append_right _ hrow))

/-! ## The page -/

/-- Two pages with as many warnings, functions and classes that occur have the same marks, whatever
the texts and the file names are.  The texts of a page's elements are read back as they were
inserted, and its badges stand in it without entities. -/
theorem marks_and_texts_of_render (r r' : Report) (fileName fileName' : Option Text)
    (hwarnings : r.warnings.length = r'.warnings.length)
    (hfunctions : r.functions.length = r'.functions.length)
    (hclasses : (r.functions.map (·.growth)).dedup.length =
      (r'.functions.map (·.growth)).dedup.length) :
    marks (render r fileName) = marks (render r' fileName')
      ∧ elementTexts (render r fileName) =
          elementTexts (joinLines opening)
            ++ (headerTexts r fileName ++ (summaryTexts r ++ (warningTexts r ++ detailTexts r)))
      ∧ (∀ s, unescape (escape s) = s)
      ∧ ∀ g, (g = r.overall ∨ ∃ f ∈ r.functions, f.growth = g) →
          "<span class=\"complexity-badge\" style=\"background-color: ".toList ++ g.color
            ++ "\">".toList ++ g.symbol ++ "</span>".toList <:+: render r fileName := by
  refine ⟨?_, elementTexts_render r fileName, unescape_escape, fun g hg => ?_⟩
  · have hdistribution : r.distribution.length = r'.distribution.length := by
      rw [r.length_distribution, r'.length_distribution, hclasses]
    have hheader := flatMap_marks_header r r' fileName fileName'
    have hdetails := flatMap_marks_details hfunctions hdistribution
    rw [render, render, marks_joinLines, marks_joinLines]
    simp only [List.flatMap_append, hheader, flatMap_marks_summary r r',
      flatMap_marks_warnings hwarnings, hdetails]
  · rw [← badge_eq]
    exact badge_infix_render hg

/-- A name made of tags adds no mark to those of a plain report, and is read back as it is. -/
theorem marks_and_texts_of_render_script :
    let hostile : Report :=
      ⟨.linear, [⟨"</code><script>".toList, .linear, 0.9, [], 1, 2⟩], "\"&lt;".toList, ["'".toList]⟩
    let plain : Report :=
      ⟨.constant, [⟨"f".toList, .constant, 0.8, ["note".toList], 3, 4⟩], "java".toList, ["w".toList]⟩
    marks (render hostile (some "<b>".toList)) = marks (render plain none)
      ∧ "</code><script>".toList ∈ elementTexts (render hostile (some "<b>".toList)) := by
  intro hostile plain
  obtain ⟨hmarks, htexts, -, -⟩ :=
    marks_and_texts_of_render hostile plain (some "<b>".toList) none rfl rfl (by decide)
  have hname : "</code><script>".toList ∈ detailTexts hostile :=
    List.mem_append_right _ (List.mem_flatMap.2 ⟨_, List.mem_singleton_self _, List.mem_cons_self⟩)
  refine ⟨hmarks, ?_⟩
  rw [htexts]
  exact List.mem_append_right _ (List.mem_append_right _ (List.mem_append_right _
    (List.mem_append_right _ hname)))

end GrowthEstimate.Export.Html
