import ActionItems.Proofs.Diff.Written
import ActionItems.Proofs.Report.Links

/-!
# What the body of a report tells

The body of a report says of each file its path, the first and the last lines of its ranges and the
number of its action items (`contents`, `toList_body`), each with its characters as they are. All of
this can be read off the body again, whatever else stands in the paths, as long as neither they nor
the address of the repository have line feeds: a heading and the line of links behind it end with
their lines; the number of a heading stands behind its last bracket, and what is left of it tells
the path by its length (`heading_inj`); with the path known, every link ends at the first space
behind the address of the file (`linkLine_inj`). So two reports have one body only if they say the
same (`body_tells`).
-/

namespace ActionItems.Report

open ActionItems.Diff (IsLine)
open ActionItems.Number ActionItems.Text

/-- What a report says about a file. -/
structure FileContents where
  path : String
  /-- The first and the last line of each range. -/
  ranges : List (Nat × Nat)
  count : Int
deriving Repr, DecidableEq

/-- What a report says about its files, given their ranges and their numbers of action items. A file
without a number has none. -/
def contents (ranges : Keyed (List LineRange)) (counts : Keyed Int) : List FileContents :=
  ranges.map fun (path, rs) => ⟨path, rs.map fun r => (r.first, r.last), (counts.find? path).getD 0⟩

/-- The ranges of a file, as a report says them. -/
def FileContents.file (e : FileContents) : String × List LineRange :=
  (e.path, e.ranges.map fun (first, last) => ⟨e.path, first, last⟩)

/-- Whether every range is of the file that it is listed under. -/
def AreOwn (ranges : Keyed (List LineRange)) : Prop :=
  ∀ file ∈ ranges, ∀ r ∈ file.2, r.file = file.1

instance (ranges : Keyed (List LineRange)) : Decidable (AreOwn ranges) :=
  inferInstanceAs (Decidable (∀ file ∈ ranges, _))

theorem contents_file {ranges : Keyed (List LineRange)} (h : AreOwn ranges) (counts : Keyed Int) :
    (contents ranges counts).map FileContents.file = ranges := by
  rw [contents, List.map_map]
  conv_rhs => rw [← List.map_id ranges]
  refine List.map_congr_left fun file hfile => Prod.ext rfl ?_
  show List.map _ (List.map _ file.2) = file.2
  rw [List.map_map]
  conv_rhs => rw [← List.map_id file.2]
  refine List.map_congr_left fun r hr => ?_
  show LineRange.mk file.1 r.first r.last = r
  rw [← h file hfile r hr]

/-! ### Numbers -/

theorem not_mem_countItems {c : Char} (hc : c ∉ "1 action items".toList) (hsign : c ≠ '-')
    (hdigit : c.isDigit = false) (n : Int) : c ∉ (countItems n).toList := by
  have singular : "1 action item".toList ⊆ "1 action items".toList := by decide
  have plural : " action items".toList ⊆ "1 action items".toList := by decide
  unfold countItems
  split
  · exact fun h => hc (singular h)
  · rw [String.toList_append, List.mem_append, not_or]
    exact ⟨not_mem_showInt hsign hdigit n, fun h => hc (plural h)⟩

/-- One action item is worded like no other number of them. -/
theorem singular_ne (n : Int) : "1 action item" ≠ showInt n ++ " action items" := by
  intro h
  have plural : 's' ∈ "1 action item".toList := by
    rw [h, String.toList_append]
    exact List.mem_append_right _ (by decide)
  exact absurd plural (by decide)

/-- **No two numbers of action items are worded alike.** -/
theorem countItems_injective : Function.Injective countItems := by
  intro n m h
  unfold countItems at h
  split at h <;> split at h
  · next hn hm => rw [hn, hm]
  · exact absurd h (singular_ne m)
  · exact absurd h.symm (singular_ne n)
  · exact showInt_injective ((String.append_left_inj _).1 h)

namespace Layout

variable {l : Layout} {r r' : LineRange} {e e' : FileContents}

/-! ### Links -/

/-- What stands behind the first line of a range in its anchor. -/
def anchorEnd (l : Layout) (r : LineRange) : List Char :=
  if r.isSingle && l.additionalLines == 0 then []
  else "-L".toList ++ (showInt (r.last + l.additionalLines)).toList

theorem toList_anchor (l : Layout) (r : LineRange) :
    (l.anchor r).toList = "#L".toList ++ (Nat.toDigits 10 r.first ++ l.anchorEnd r) := by
  unfold anchor anchorEnd
  split
  · rw [String.toList_append, toList_toString, List.append_nil]
  · simp only [String.toList_append, toList_toString, List.append_assoc]

theorem last_eq_of_anchorEnd (hfirst : r.first = r'.first) (h : l.anchorEnd r = l.anchorEnd r') :
    r.last = r'.last := by
  unfold anchorEnd at h
  split at h <;> split at h
  · next single single' =>
    simp only [LineRange.isSingle, Bool.and_eq_true, beq_iff_eq] at single single'
    omega
  · cases h
  · cases h
  · have same := showInt_injective (String.toList_inj.1 (List.append_cancel_left h))
    omega

/-- **The anchor of a range tells its lines.** -/
theorem anchor_inj (h : l.anchor r = l.anchor r') : r.first = r'.first ∧ r.last = r'.last := by
  have behind (r : LineRange) : ∀ c ∈ (l.anchorEnd r).head?, c.isDigit = false := by
    unfold anchorEnd
    split
    · exact fun c hc => nomatch hc
    · rintro c ⟨⟩
      rfl
  have lists := congrArg String.toList h
  rw [toList_anchor, toList_anchor] at lists
  obtain ⟨digits, ends⟩ :=
    append_inj_of_head (fun _ => isDigit_of_mem_toDigits) (fun _ => isDigit_of_mem_toDigits)
    (behind r) (behind r') (List.append_cancel_left lists)
  have first := eq_of_toDigits digits
  exact ⟨first, last_eq_of_anchorEnd first ends⟩

theorem not_mem_anchor {c : Char} (hc : c ∉ "#L-".toList) (hdigit : c.isDigit = false)
    (r : LineRange) : c ∉ (l.anchor r).toList := by
  have start : "#L".toList ⊆ "#L-".toList := by decide
  have middle : "-L".toList ⊆ "#L-".toList := by decide
  have sign : c ≠ '-' := fun he => hc (he ▸ by decide)
  rw [toList_anchor, List.mem_append, List.mem_append, not_or, not_or]
  refine ⟨fun h => hc (start h), not_mem_toDigits hdigit _, ?_⟩
  unfold anchorEnd
  split
  · exact List.not_mem_nil
  · rw [List.mem_append, not_or]
    exact ⟨fun h => hc (middle h), not_mem_showInt sign hdigit _⟩

/-- The links to ranges of a file at an address, each with a space behind it. -/
def linkLine (l : Layout) (address : List Char) (ranges : List (Nat × Nat)) : List Char :=
  ranges.flatMap fun (first, last) => address ++ (l.anchor ⟨"", first, last⟩).toList ++ [' ']

theorem linkLine_cons (l : Layout) (address : List Char) (first last : Nat)
    (ranges : List (Nat × Nat)) :
    l.linkLine address ((first, last) :: ranges) =
      address ++ ((l.anchor ⟨"", first, last⟩).toList ++ ' ' :: l.linkLine address ranges) := by
  simp [linkLine]

/-- **The links to a file tell the lines of its ranges**, with the address of the file known. -/
theorem linkLine_inj {address : List Char} {rs rs' : List (Nat × Nat)}
    (h : l.linkLine address rs = l.linkLine address rs') : rs = rs' := by
  induction rs generalizing rs' with
  | nil =>
    cases rs' with
    | nil => rfl
    | cons r' rs' => simp [linkLine] at h
  | cons r rs ih =>
    cases rs' with
    | nil => simp [linkLine] at h
    | cons r' rs' =>
      rw [linkLine_cons, linkLine_cons] at h
      obtain ⟨anchors, rest⟩ := append_cons_inj (not_mem_anchor (by decide) (by decide) _)
        (not_mem_anchor (by decide) (by decide) _) (List.append_cancel_left h)
      obtain ⟨first, last⟩ := anchor_inj (String.toList_inj.1 anchors)
      rw [ih rest, Prod.ext first last]

/-! ### Headings -/

/-- The heading of a file. -/
def heading (l : Layout) (path : String) (count : Int) : List Char :=
  "## [`".toList ++ (path.toList ++ ("`](".toList ++ (l.fileLink path).toList ++ ") ".toList)) ++
    '(' :: ((countItems count).toList ++ "):".toList)

/-- **A heading tells the path of its file and the number of its action items.** -/
theorem heading_inj {path path' : String} {n n' : Int} (h : l.heading path n = l.heading path' n') :
    path = path' ∧ n = n' := by
  have closed (n : Int) : '(' ∉ (countItems n).toList ++ "):".toList := by
    rw [List.mem_append, not_or]
    exact ⟨not_mem_countItems (by decide) (by decide) (by decide) n, by decide⟩
  obtain ⟨front, counts⟩ := append_cons_inj_last (closed n) (closed n') h
  -- the path stands twice in front of the number, so its length is known before it is
  have lengths := congrArg List.length front
  simp only [List.length_append, toList_fileLink] at lengths
  obtain ⟨paths, -⟩ := List.append_inj (List.append_cancel_left front) (by omega)
  exact ⟨String.toList_inj.1 paths,
    countItems_injective (String.toList_inj.1 (List.append_cancel_right counts))⟩

/-! ### Sections -/

/-- The heading of a file and its links, as they stand in a body. -/
def text (l : Layout) (e : FileContents) : List Char :=
  '\n' :: (l.heading e.path e.count ++ '\n' :: l.linkLine (l.fileLink e.path).toList e.ranges)

theorem toList_fileSection (l : Layout) (counts : Keyed Int) (path : String) (rs : List LineRange) :
    (l.fileSection counts path (l.rangeLinks path rs)).toList =
      l.text ⟨path, rs.map fun r => (r.first, r.last), (counts.find? path).getD 0⟩ := by
  have links : (String.join ((l.rangeLinks path rs).map (· ++ " "))).toList =
      l.linkLine (l.fileLink path).toList (rs.map fun r => (r.first, r.last)) := by
    rw [String.toList_join, rangeLinks, linkLine, List.map_map, List.flatMap_map, List.flatMap_map]
    refine List.flatMap_congr fun r _ => ?_
    simp only [Function.comp_apply, String.toList_append]
    rfl
  unfold fileSection text heading
  simp only [String.toList_append, links, List.append_assoc, List.cons_append]
  rfl

/-- **The body of a report is what it says of its files**, one behind the other. -/
theorem toList_body (l : Layout) (ranges : Keyed (List LineRange)) (counts : Keyed Int) :
    (l.render ranges counts).body.toList = (contents ranges counts).flatMap l.text := by
  show (String.join (List.map _ (List.map _ ranges))).toList = (List.map _ ranges).flatMap l.text
  rw [String.toList_join, List.map_map, List.flatMap_map, List.flatMap_map]
  exact List.flatMap_congr fun file _ => toList_fileSection l counts file.1 file.2

variable (hbase : IsLine l.base)
include hbase

theorem newline_not_mem_fileLink {path : String} (h : IsLine path) :
    '\n' ∉ (l.fileLink path).toList := by
  rw [toList_fileLink, String.toList_append, List.mem_append, List.mem_append, not_or, not_or]
  exact ⟨⟨hbase, by decide⟩, h⟩

theorem newline_not_mem_heading {path : String} (h : IsLine path) (n : Int) :
    '\n' ∉ l.heading path n := by
  have count : '\n' ∉ (countItems n).toList :=
    not_mem_countItems (by decide) (by decide) (by decide) n
  unfold heading
  rw [List.mem_append, List.mem_append, List.mem_append, List.mem_append, List.mem_append,
    List.mem_cons, List.mem_append]
  rintro ((marks | inPath | (marks | address) | marks) | mark | counted | marks)
  · exact absurd marks (by decide)
  · exact h inPath
  · exact absurd marks (by decide)
  · exact newline_not_mem_fileLink hbase h address
  · exact absurd marks (by decide)
  · cases mark
  · exact count counted
  · exact absurd marks (by decide)

theorem newline_not_mem_linkLine {path : String} (h : IsLine path) (rs : List (Nat × Nat)) :
    '\n' ∉ l.linkLine (l.fileLink path).toList rs := by
  rw [linkLine, List.mem_flatMap]
  rintro ⟨r, -, hr⟩
  rw [List.mem_append, List.mem_append] at hr
  rcases hr with (address | anchor) | space
  · exact newline_not_mem_fileLink hbase h address
  · exact not_mem_anchor (by decide) (by decide) _ anchor
  · exact absurd space (by decide)

/-- **What is said of some files tells each of them**, with its ranges and its number. -/
theorem flatMap_text_inj {es es' : List FileContents} (hes : ∀ e ∈ es, IsLine e.path)
    (hes' : ∀ e ∈ es', IsLine e.path) (h : es.flatMap l.text = es'.flatMap l.text) : es = es' := by
  have ends (es : List FileContents) : ∀ c ∈ (es.flatMap l.text).head?, (c != '\n') = false := by
    cases es with
    | nil => exact fun c hc => nomatch hc
    | cons e es =>
      rintro c ⟨⟩
      rfl
  have other {s : List Char} (hs : '\n' ∉ s) : ∀ c ∈ s, (c != '\n') = true := fun c hc =>
    bne_iff_ne.2 fun he => hs (he ▸ hc)
  induction es generalizing es' with
  | nil =>
    cases es' with
    | nil => rfl
    | cons e' es' => simp [text] at h
  | cons e es ih =>
    cases es' with
    | nil => simp [text] at h
    | cons e' es' =>
      obtain ⟨he, hes⟩ := List.forall_mem_cons.1 hes
      obtain ⟨he', hes'⟩ := List.forall_mem_cons.1 hes'
      simp only [List.flatMap_cons, text, List.cons_append, List.append_assoc, List.cons.injEq,
        true_and] at h
      obtain ⟨headings, behind⟩ := append_cons_inj (newline_not_mem_heading hbase he _)
        (newline_not_mem_heading hbase he' _) h
      obtain ⟨paths, counts⟩ := heading_inj headings
      obtain ⟨links, rest⟩ := append_inj_of_head (other (newline_not_mem_linkLine hbase he _))
        (other (newline_not_mem_linkLine hbase he' _)) (ends es) (ends es') behind
      rw [paths] at links
      have same : e = e' := by
        cases e
        cases e'
        exact congr (congrArg₂ FileContents.mk paths (linkLine_inj links)) counts
      rw [same, ih hes hes' rest]

end Layout

variable {base : String} {ranges ranges' : Keyed (List LineRange)} {counts counts' : Keyed Int}

/-- **The body of a report loses nothing.** Two bodies with links of one layout are the same if and
only if they are of the same files in the same order, with the same lines of their ranges and the
same numbers of action items; if the ranges are of the files that they are listed under, they are
the same ranges. -/
theorem body_tells (hbase : IsLine base) (added : Int) (hpaths : ∀ path ∈ ranges.keys, IsLine path)
    (hpaths' : ∀ path ∈ ranges'.keys, IsLine path) :
    let l := Layout.make added base
    ((l.render ranges counts).body = (l.render ranges' counts').body ↔
        contents ranges counts = contents ranges' counts') ∧
      ((l.render ranges counts).body = (l.render ranges' counts').body → AreOwn ranges →
        AreOwn ranges' → ranges = ranges') := by
  intro l
  have line : IsLine l.base := fun h => hbase ((Layout.base_make_prefix added base).subset h)
  have lines {ranges : Keyed (List LineRange)} (h : ∀ path ∈ ranges.keys, IsLine path)
      (counts : Keyed Int) :
      ∀ e ∈ contents ranges counts, IsLine e.path := by
    intro e he
    obtain ⟨file, hfile, rfl⟩ := List.mem_map.1 he
    exact h _ (List.mem_map_of_mem hfile)
  have told : (l.render ranges counts).body = (l.render ranges' counts').body ↔
      contents ranges counts = contents ranges' counts' := by
    rw [← String.toList_inj, Layout.toList_body, Layout.toList_body]
    exact ⟨Layout.flatMap_text_inj line (lines hpaths counts) (lines hpaths' counts'), fun h => by
      rw [h]⟩
  refine ⟨told, fun h own own' => ?_⟩
  rw [← contents_file own counts, told.1 h, contents_file own' counts']

/-- A path may hold a whole heading, and the body still tells one file from two. -/
theorem body_tells_heading_in_path :
    let l := Layout.make 0 "https://github.com/o/r/blob/c0"
    let path := "a`](https://github.com/o/r/blob/c0/a) (1 action item): b#L1 "
    (l.render [(path, [⟨path, 1, 1⟩, ⟨path, 1, 2⟩])] [(path, 1)]).body ≠
        (l.render [("a", [⟨"a", 1, 1⟩]), (path, [⟨path, 1, 2⟩])] [("a", 1), (path, 1)]).body ∧
      (l.render [(path, [⟨path, 1, 1⟩])] [(path, 2)]).body ≠
        (l.render [(path, [⟨path, 1, 1⟩])] [(path, 1)]).body := by
  intro l path
  constructor
  · exact fun h => absurd ((body_tells (by decide) 0 (by decide) (by decide)).1.1 h) (by decide)
  · exact fun h => absurd ((body_tells (by decide) 0 (by decide) (by decide)).1.1 h) (by decide)

end ActionItems.Report
