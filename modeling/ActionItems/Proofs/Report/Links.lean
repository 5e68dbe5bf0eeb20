import ActionItems.Proofs.Diff.Reading
import ActionItems.Proofs.Number.Written
import ActionItems.Report.Links
import Mathlib.Data.List.Forall2

/-!
# Where links lead

A link is read as an address (`Address.read`): its fragment stands behind the first number sign, and
its query behind the first question mark before that, so its place ends at the first of these marks
(`place_read`). A link to the lines of a file holds the path of the file as it is. It is the address
of the file, with the lines as its fragment, if and only if neither of the marks is in the path
(`Layout.leads_link`, `links_lead`).
-/

namespace ActionItems.Report

open ActionItems.Number ActionItems.Text

/-! ### Addresses -/

/-- What stands before the first `mark` in a text, and what stands behind it. -/
def cutAt (mark : Char) (s : List Char) : List Char × Option (List Char) :=
  (s.takeWhile (· != mark), (s.dropWhile (· != mark)).tail?)

/-- An address in its parts. -/
structure Address where
  /-- What stands before the query and the fragment. -/
  place : List Char
  query? : Option (List Char)
  fragment? : Option (List Char)
deriving Repr, DecidableEq

/-- A text as an address. -/
def Address.read (s : List Char) : Address :=
  let (front, fragment?) := cutAt '#' s
  let (place, query?) := cutAt '?' front
  ⟨place, query?, fragment?⟩

/-- Whether a character belongs to the place of an address, wherever it stands in it. -/
def isPlain (c : Char) : Bool := c != '?' && c != '#'

/-- A text without the marks that end the place of an address. -/
def IsPlain (s : List Char) : Prop := ∀ c ∈ s, isPlain c = true

instance (s : List Char) : Decidable (IsPlain s) := List.decidableBAll (fun c => isPlain c = true) s

variable {mark : Char} {s t : List Char}

theorem cutAt_append_cons (h : mark ∉ s) : cutAt mark (s ++ mark :: t) = (s, some t) := by
  have other : ∀ c ∈ s, (c != mark) = true := fun c hc => bne_iff_ne.2 fun he => h (he ▸ hc)
  simp [cutAt, List.takeWhile_append_of_pos other, List.dropWhile_append_of_pos other]

theorem cutAt_of_not_mem (h : mark ∉ s) : cutAt mark s = (s, none) := by
  have other : ∀ c ∈ s, (c != mark) = true := fun c hc => bne_iff_ne.2 fun he => h (he ▸ hc)
  rw [cutAt, List.takeWhile_eq_self_iff.2 other, List.dropWhile_eq_nil_iff.2 other]
  rfl

theorem isPlain_iff : IsPlain s ↔ '?' ∉ s ∧ '#' ∉ s := by
  constructor
  · exact fun h => ⟨fun hm => absurd (h _ hm) (by decide), fun hm => absurd (h _ hm) (by decide)⟩
  · rintro ⟨query, fragment⟩ c hc
    rw [isPlain, Bool.and_eq_true, bne_iff_ne, bne_iff_ne]
    exact ⟨fun he => query (he ▸ hc), fun he => fragment (he ▸ hc)⟩

theorem isPlain_append : IsPlain (s ++ t) ↔ IsPlain s ∧ IsPlain t := List.forall_mem_append

/-- **The place of an address ends at the first of its marks.** -/
theorem place_read (s : List Char) : (Address.read s).place = s.takeWhile isPlain := by
  show (s.takeWhile (· != '#')).takeWhile (· != '?') = _
  rw [List.takeWhile_takeWhile]
  refine congrArg (List.takeWhile · s) (funext fun c => ?_)
  rw [Bool.eq_iff_iff, decide_eq_true_eq, isPlain, Bool.and_eq_true]

theorem takeWhile_append_cons {p : Char → Bool} {c : Char} (hc : p c = false) :
    (s ++ c :: t).takeWhile p = s.takeWhile p := by
  induction s with
  | nil => exact List.takeWhile_cons_of_neg (by rw [hc]; decide)
  | cons d s ih => rw [List.cons_append, List.takeWhile_cons, List.takeWhile_cons, ih]

theorem read_append_cons (h : IsPlain s) : Address.read (s ++ '#' :: t) = ⟨s, none, some t⟩ := by
  obtain ⟨query, fragment⟩ := isPlain_iff.1 h
  simp only [Address.read, cutAt_append_cons fragment, cutAt_of_not_mem query]

/-! ### Links -/

namespace Layout

variable {l : Layout} {path : String} {r : LineRange}

/-- The lines of a range as its anchor shows them. -/
def lines (l : Layout) (r : LineRange) : List Char := (l.anchor r).toList.tail

/-- **The anchor of a range is a number sign and its lines**, which have neither mark in them. -/
theorem anchor_eq (l : Layout) (r : LineRange) :
    (l.anchor r).toList = '#' :: l.lines r ∧ IsPlain (l.lines r) := by
  have digits (n : Nat) : IsPlain (toString n).toList := by
    rw [toList_toString, isPlain_iff]
    exact ⟨not_mem_toDigits (by decide) n, not_mem_toDigits (by decide) n⟩
  have number (i : Int) : IsPlain (showInt i).toList :=
    isPlain_iff.2 ⟨not_mem_showInt (by decide) (by decide) i,
      not_mem_showInt (by decide) (by decide) i⟩
  unfold lines anchor
  split
  · rw [String.toList_append]
    exact ⟨rfl, List.forall_mem_cons.2 ⟨by decide, digits _⟩⟩
  · simp only [String.toList_append]
    exact ⟨rfl, List.forall_mem_cons.2 ⟨by decide, isPlain_append.2
      ⟨isPlain_append.2 ⟨digits _, by decide⟩, number _⟩⟩⟩

/-- Where a link to a range of a file leads, whatever the path of the file is. -/
structure Leads (l : Layout) (path : String) (r : LineRange) (link : String) : Prop where
  /-- Its number signs are those of the path and the one that the lines stand behind. -/
  numberSigns : link.toList.count '#' = path.toList.count '#' + 1
  questionMarks : link.toList.count '?' = path.toList.count '?'
  /-- It leads to the file whose path is what stands before the first mark in the path. -/
  place : (Address.read link.toList).place = (l.base ++ "/").toList ++ path.toList.takeWhile isPlain
  /-- It leads to the lines of the file itself if and only if there is no such mark. -/
  own_iff : Address.read link.toList = ⟨(l.fileLink path).toList, none, some (l.lines r)⟩ ↔
    IsPlain path.toList

theorem toList_fileLink (l : Layout) (path : String) :
    (l.fileLink path).toList = (l.base ++ "/").toList ++ path.toList := String.toList_append

theorem toList_link (l : Layout) (path : String) (r : LineRange) :
    (l.fileLink path ++ l.anchor r).toList = (l.base ++ "/").toList ++ path.toList ++ '#' ::
      l.lines r := by
  rw [String.toList_append, (anchor_eq l r).1, toList_fileLink]

/-- **A link leads to the lines of its file**, as far as the path has no marks. -/
theorem leads_link (hbase : IsPlain l.base.toList) (path : String) (r : LineRange) :
    l.Leads path r (l.fileLink path ++ l.anchor r) := by
  have front : IsPlain (l.base ++ "/").toList := by
    rw [String.toList_append]
    exact isPlain_append.2 ⟨hbase, by decide⟩
  obtain ⟨noQuery, noFragment⟩ := isPlain_iff.1 front
  obtain ⟨noQuery', noFragment'⟩ := isPlain_iff.1 (anchor_eq l r).2
  refine ⟨?_, ?_, ?_, ?_, fun h => ?_⟩
  · rw [toList_link, List.count_append, List.count_append, List.count_cons_self,
      List.count_eq_zero_of_not_mem noFragment, List.count_eq_zero_of_not_mem noFragment']
    omega
  · rw [toList_link, List.count_append, List.count_append, List.count_cons_of_ne (by decide),
      List.count_eq_zero_of_not_mem noQuery, List.count_eq_zero_of_not_mem noQuery']
    omega
  · rw [place_read, toList_link, List.append_assoc, List.takeWhile_append_of_pos front,
      takeWhile_append_cons (by decide)]
  · intro h
    have place : (l.fileLink path).toList = _ := (congrArg Address.place h).symm
    have plain : IsPlain (l.fileLink path).toList := by
      rw [place, place_read]
      exact fun c => List.mem_takeWhile_imp
    rw [toList_fileLink] at plain
    exact (isPlain_append.1 plain).2
  · rw [toList_link, toList_fileLink]
    exact read_append_cons (isPlain_append.2 ⟨front, h⟩)

theorem base_make_prefix (added : Int) (base : String) :
    (make added base).base.toList <+: base.toList := by
  rw [make, String.toList_ofList]
  exact Diff.stripEndWhile_prefix_self _ _

end Layout

/-- **Links lead to the lines of their files**, of a repository and a commit without marks, if the
paths of the files are without marks as well. A link to a file with a mark in its path leads to what
stands before the mark. -/
theorem links_lead {repository commit : String} (hr : IsPlain repository.toList)
    (hc : IsPlain commit.toList) (added : Int) (ranges : Keyed (List LineRange)) :
    let l := Layout.make added (linkBase repository commit)
    List.Forall₂ (fun file entry => entry.1 = file.1 ∧ List.Forall₂ (l.Leads file.1) file.2 entry.2)
      ranges (l.links ranges) := by
  intro l
  have whole : IsPlain (linkBase repository commit).toList := by
    simp only [linkBase, String.toList_append, isPlain_append]
    exact ⟨⟨⟨⟨by decide, by decide⟩, hr⟩, by decide⟩, hc⟩
  have base : IsPlain l.base.toList :=
    fun c hc => whole c ((Layout.base_make_prefix added _).subset hc)
  refine List.forall₂_map_right_iff.2 (List.forall₂_same.2 fun file _ => ⟨rfl, ?_⟩)
  refine List.forall₂_map_right_iff.2 (List.forall₂_same.2 fun r _ => ?_)
  exact Layout.leads_link base file.1 r

/-- The link to a file with a number sign in its path leads to another file. -/
theorem links_lead_number_sign :
    let l := Layout.make 0 (linkBase "o/r" "c0")
    let link := "https://github.com/o/r/blob/c0/a#b.py#L3"
    l.links [("a#b.py", [⟨"a#b.py", 3, 3⟩])] = [("a#b.py", [link])] ∧ link.toList.count '#' = 2 ∧
      (Address.read link.toList).place = "https://github.com/o/r/blob/c0/a".toList ∧
      Address.read link.toList ≠ ⟨(l.fileLink "a#b.py").toList, none, some "L3".toList⟩ := by
  intro l link
  have links : l.links [("a#b.py", [⟨"a#b.py", 3, 3⟩])] = [("a#b.py", [link])] := by decide +kernel
  have lines : l.lines ⟨"a#b.py", 3, 3⟩ = "L3".toList := by decide +kernel
  have leads : List.Forall₂ _ _ (l.links [("a#b.py", [⟨"a#b.py", 3, 3⟩])]) :=
    links_lead (by decide : IsPlain "o/r".toList) (by decide : IsPlain "c0".toList) 0 _
  rw [links, List.forall₂_cons, List.forall₂_cons] at leads
  obtain ⟨⟨-, lead, -⟩, -⟩ := leads
  refine ⟨links, lead.numberSigns.trans (by decide), lead.place.trans (by decide +kernel),
    fun h => ?_⟩
  exact absurd (lead.own_iff.1 (lines ▸ h)) (by decide)

end ActionItems.Report
