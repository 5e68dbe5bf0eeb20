import ActionItems.Proofs.Json.Grammar

/-!
# Steps of the JSON reader

The reader of values, lists and objects step by step. Lists and objects are read alike, entry by
entry (`run_succ`); a value is told by its first character (`value_quote`, `value_opening`,
`value_atom`). Where the parts that hold no others end is known of each of them: strings, the names
of members, words and numbers (`ends_string`, `ends_memberName`, `ends_atom`).
-/

namespace ActionItems.Json

open ActionItems.Number (digitLimit)

variable {c : Cursor} {s rest : List Nat} {fuel : Nat}

/-! ### Cursors -/

@[simp] theorem rest_advance (c : Cursor) (n : Nat) : (c.advance n).rest = c.rest.drop n := rfl

@[simp] theorem rest_skip (c : Cursor) : c.skip.rest = afterGap c.rest := by
  show c.rest.drop (c.rest.takeWhile isGap).length = c.rest.dropWhile isGap
  have text : ((c.rest.takeWhile isGap) ++ c.rest.dropWhile isGap).drop
      (c.rest.takeWhile isGap).length = _ :=
    List.drop_left
  rwa [List.takeWhile_append_dropWhile] at text

theorem rest_next {n : Nat} (h : c.rest = n :: s) : (c.advance 1).rest = s := by
  rw [rest_advance, h]
  rfl

theorem rest_inner {n : Nat} (h : c.rest = n :: s) : (c.advance 1).skip.rest = afterGap s := by
  rw [rest_skip, rest_next h]

theorem next?_eq_some_iff (ch : Char) (h : ch.toNat ≠ 0) :
    c.next? = some ch ↔ c.rest.head? = some ch.toNat := by
  have point (n : Nat) : Char.ofNat n = ch ↔ n = ch.toNat := by
    constructor
    · rintro rfl
      by_cases valid : n.isValidChar
      · have point : Char.ofNat n = Char.ofNatAux n valid := dif_pos valid
        rw [point]
        rfl
      · have null : Char.ofNat n = '\x00' := dif_neg valid
        rw [null] at h
        exact absurd rfl h
    · rintro rfl
      exact Char.ofNat_toNat ch
  rw [Cursor.next?, Option.map_eq_some_iff]
  constructor
  · rintro ⟨n, hn, hch⟩
    rw [hn, (point n).1 hch]
  · exact fun hn => ⟨_, hn, Char.ofNat_toNat ch⟩

theorem next?_of_rest {ch : Char} (h : c.rest = ch.toNat :: s) : c.next? = some ch := by
  rw [Cursor.next?, h]
  exact congrArg some (Char.ofNat_toNat ch)

theorem exists_rest_of_next? {ch : Char} (hzero : ch.toNat ≠ 0) (h : c.next? = some ch) :
    ∃ s, c.rest = ch.toNat :: s :=
  List.head?_eq_some_iff.1 ((next?_eq_some_iff ch hzero).1 h)

/-! ### Steps of the reader -/

/-- What has been read of a value that holds others. -/
inductive Held where
  | items (read : List Value)
  | members (read : List (Value × Value))

def Held.kind : Held → Kind
  | .items _ => .list
  | .members _ => .map

/-- Reads the entries that are left. -/
def Held.run : Held → Nat → Cursor → Except Failure (Value × Cursor)
  | .items read, fuel, c => Json.items fuel read c
  | .members read, fuel, c => Json.members fuel read c

/-- The value with all its entries. -/
def Held.close : Held → Value
  | .items read => .list read.reverse
  | .members read => .map read

/-- What follows an entry. -/
def Held.goOn (held : Held) (fuel : Nat) (c : Cursor) : Except Failure (Value × Cursor) :=
  if c.rest.head? = some held.kind.closing then .ok (held.close, c.advance 1)
  else if c.rest.head? = some 0x2C then held.run fuel (c.advance 1).skip
  else .error (.at .comma c.offset)

/-- Nothing yet. -/
def Kind.fresh : Kind → Held
  | .list => .items []
  | .map => .members []

theorem Held.goOn_eq (held : Held) (ch : Char) (hch : ch.toNat = held.kind.closing)
    (hzero : ch.toNat ≠ 0) :
    held.goOn fuel c =
      if c.next? = some ch then .ok (held.close, c.advance 1)
      else if c.next? = some ',' then held.run fuel (c.advance 1).skip
      else .error (.at .comma c.offset) := by
  unfold goOn
  simp only [next?_eq_some_iff ch hzero, hch, next?_eq_some_iff ',' (by decide)]
  rfl

theorem run_items (read : List Value) (fuel : Nat) (c : Cursor) :
    (Held.items read).run (fuel + 1) c =
    value fuel c >>= fun (v, after) => (Held.items (v :: read)).goOn fuel after.skip := by
  show items (fuel + 1) read c = _
  rw [items]
  refine congrArg _ (funext fun (v, after) => ?_)
  dsimp only
  rw [Held.goOn_eq _ ']' rfl (by decide)]
  split
  · next h => rw [if_pos h]; rfl
  · next h => rw [h, if_neg (by decide), if_pos rfl]; rfl
  · next h h' => rw [if_neg h, if_neg h']; rfl

/-- The name of the member at a cursor, and the cursor at its value. -/
def memberName (c : Cursor) : Except Failure (Value × Cursor) :=
  if c.next? = some '"' then
    string (c.advance 1) >>= fun (key, after) =>
      if after.skip.next? = some ':' then .ok (key, (after.skip.advance 1).skip)
      else .error (.at .colon after.skip.offset)
  else .error (.at .propertyName c.offset)

theorem run_members (read : List (Value × Value)) (fuel : Nat) (c : Cursor) :
    (Held.members read).run (fuel + 1) c =
    memberName c >>= fun (key, start) => value fuel start >>= fun (v, after) =>
      (Held.members (Value.insert key v read)).goOn fuel after.skip := by
  show members (fuel + 1) read c = _
  rw [members, memberName]
  by_cases quote : c.next? = some '"'
  · rw [if_neg (not_not_intro quote), if_pos quote]
    dsimp only
    cases string (c.advance 1) with
    | error e => rfl
    | ok result =>
      obtain ⟨key, after⟩ := result
      show (if after.skip.next? ≠ some ':' then _ else _) =
          (if after.skip.next? = some ':' then _ else _) >>= _
      by_cases colon : after.skip.next? = some ':'
      · rw [if_neg (not_not_intro colon), if_pos colon]
        refine congrArg _ (funext fun (v, after) => ?_)
        dsimp only
        rw [Held.goOn_eq _ '\x7d' rfl (by decide)]
        split
        · next h => rw [if_pos h]; rfl
        · next h => rw [h, if_neg (by decide), if_pos rfl]; rfl
        · next h h' => rw [if_neg h, if_neg h']; rfl
      · rw [if_pos colon, if_neg colon]
        rfl
  · rw [if_pos quote, if_neg quote]
    rfl

/-- The name of the entry at a cursor, if it has one, and the cursor at its value. -/
def Held.start : Held → Cursor → Except Failure (Value × Cursor)
  | .items _, c => .ok (.null, c)
  | .members _, c => memberName c

/-- With one more entry. -/
def Held.add : Held → Value → Value → Held
  | .items read, _, v => .items (v :: read)
  | .members read, key, v => .members (Value.insert key v read)

@[simp] theorem Held.kind_add (held : Held) (key v : Value) :
    (held.add key v).kind = held.kind := by
  cases held <;> rfl

@[simp] theorem Kind.kind_fresh (kind : Kind) : kind.fresh.kind = kind := by
  cases kind <;> rfl

/-- **Entries are read one by one**, those of a list like those of an object. -/
theorem run_succ (held : Held) (fuel : Nat) (c : Cursor) : held.run (fuel + 1) c =
    held.start c >>= fun (key, start) => value fuel start >>= fun (v, after) =>
      (held.add key v).goOn fuel after.skip := by
  cases held with
  | items read => exact run_items read fuel c
  | members read => exact run_members read fuel c

theorem value_quote (h : c.rest = 0x22 :: s) : value (fuel + 1) c = string (c.advance 1) := by
  have next : c.next? = some '"' := next?_of_rest h
  rw [value, next]
  rfl

theorem value_opening {kind : Kind} (h : c.rest = kind.opening :: s) : value (fuel + 1) c =
    if (afterGap s).head? =
      some kind.closing then .ok (kind.fresh.close, (c.advance 1).skip.advance 1)
    else kind.fresh.run fuel (c.advance 1).skip := by
  have inner := rest_inner h
  cases kind with
  | list =>
    have next : c.next? = some '[' := next?_of_rest h
    have closing : (c.advance 1).skip.next? = some ']' ↔
        (afterGap s).head? = some Kind.list.closing := by
      rw [next?_eq_some_iff _ (by decide), inner]
      rfl
    rw [value, next]
    dsimp only
    simp only [closing]
    rfl
  | map =>
    have next : c.next? = some '\x7b' := next?_of_rest h
    have closing : (c.advance 1).skip.next? = some '\x7d' ↔
        (afterGap s).head? = some Kind.map.closing := by
      rw [next?_eq_some_iff _ (by decide), inner]
      rfl
    rw [value, next]
    dsimp only
    simp only [closing]
    rfl

theorem atom_eq_number (h : ∀ word ∈ wordTexts, ¬ word <+: c.rest) : atom c = number c := by
  have none : (words.find? fun w => c.startsWith w.1) = none := by
    refine List.find?_eq_none.2 fun w hw starts => h _ (List.mem_map_of_mem hw) ?_
    exact List.isPrefixOf_iff_prefix.1 starts
  rw [atom, none]

theorem atom_word {word : List Nat} (hword : word ∈ wordTexts) (text : c.rest = word ++ rest) :
    ∃ v, atom c = .ok (v, ⟨rest, c.offset + word.length⟩) := by
  have apart : ∀ word ∈ wordTexts, ∀ word' ∈ wordTexts, word <+: word' → word = word' := by
    decide +kernel
  cases found : words.find? fun w => c.startsWith w.1 with
  | none =>
    obtain ⟨w, hw, rfl⟩ := List.mem_map.1 hword
    refine absurd ?_ (List.find?_eq_none.1 found w hw)
    exact List.isPrefixOf_iff_prefix.2 (text ▸ List.prefix_append _ _)
  | some w =>
    have starts : w.1.toList.map Char.toNat <+: c.rest :=
      List.isPrefixOf_iff_prefix.1
        (List.find?_some (p := fun w : String × Value => c.startsWith w.1) found)
    have isWord : w.1.toList.map Char.toNat ∈ wordTexts :=
      List.mem_map_of_mem (List.mem_of_find?_eq_some found)
    have same : w.1.toList.map Char.toNat = word := by
      obtain first | first :=
        List.prefix_or_prefix_of_prefix starts (text ▸ List.prefix_append word rest)
      · exact apart _ isWord _ hword first
      · exact (apart _ hword _ isWord first).symm
    have length : w.1.length = word.length := by rw [← same, List.length_map, String.length_toList]
    refine ⟨w.2, ?_⟩
    rw [atom, found]
    show Except.ok (w.2, c.advance w.1.length) = _
    rw [Cursor.advance, length, text, List.drop_left]

/-- A text begins neither with the quote of a string nor with a bracket. -/
def OpensAtom (s : List Nat) : Prop := ∀ n ∈ s.head?, n ≠ 0x22 ∧ ∀ kind : Kind, n ≠ kind.opening

theorem value_atom (h : OpensAtom c.rest) : value (fuel + 1) c = atom c := by
  have other (ch : Char) (hzero : ch.toNat ≠ 0)
      (hch : ch.toNat = 0x22 ∨ ∃ kind : Kind, ch.toNat = kind.opening) : c.next? ≠ some ch := by
    intro next
    obtain ⟨quote, opening⟩ := h _ ((next?_eq_some_iff ch hzero).1 next)
    obtain hquote | ⟨kind, hkind⟩ := hch
    · exact quote hquote
    · exact opening kind hkind
  rw [value]
  split
  · next next =>
    obtain ⟨points, offset⟩ := c
    cases points with
    | nil => rfl
    | cons n points => cases next
  · next next => exact absurd next (other '"' (by decide) (.inl rfl))
  · next next => exact absurd next (other '[' (by decide) (.inr ⟨.list, rfl⟩))
  · next next => exact absurd next (other '\x7b' (by decide) (.inr ⟨.map, rfl⟩))
  · rfl

/-! ### What a reading ends in -/

section Ends

variable {α β : Type} {R R' : List Nat → Prop} {L L' : Nat → Prop}

/-- A reading ends at a text that `R` holds of, with a fault, or at an integer whose number of
digits `L` holds of. -/
def Ends (R : List Nat → Prop) (L : Nat → Prop) : Except Failure (α × Cursor) → Prop
  | .ok (_, after) => R after.rest
  | .error (.at _ _) => True
  | .error (.number e) => ∃ n, e = .tooLong n ∧ L n

theorem Ends.imp {x : Except Failure (α × Cursor)} (h : Ends R L x) (hR : ∀ rest, R rest → R' rest)
    (hL : ∀ n, L n → L' n) : Ends R' L' x := by
  rcases x with (⟨fault, offset⟩ | e) | ⟨a, after⟩
  · trivial
  · obtain ⟨n, he, hn⟩ := h
    exact ⟨n, he, hL n hn⟩
  · exact hR _ h

theorem Ends.bind {x : Except Failure (α × Cursor)} {f : α × Cursor → Except Failure (β × Cursor)}
    (h : Ends R L x) (hL : ∀ n, L n → L' n)
    (hf : ∀ a after, R after.rest → Ends R' L' (f (a, after))) : Ends R' L' (x >>= f) := by
  rcases x with (⟨fault, offset⟩ | e) | ⟨a, after⟩
  · trivial
  · obtain ⟨n, he, hn⟩ := h
    exact ⟨n, he, hL n hn⟩
  · exact hf a after h

/-- A reading ends at `rest`. -/
def EndsAt (rest : List Nat) (x : Except Failure (α × Cursor)) : Prop :=
  ∃ a after, x = .ok (a, after) ∧ after.rest = rest

end Ends

/-! ### Strings -/

theorem ends_stringBody (start : Nat) (read : List Nat) (paired : Bool) (offset : Nat)
    (s : List Nat) : Ends (Closes s) (fun _ => False) (stringBody start read paired offset s) := by
  fun_induction stringBody with
  | case5 _ _ _ _ _ _ _ _ _ digits _ ih => exact ih.imp (fun _ => .code digits) fun _ => id
  | case7 _ _ _ _ _ _ _ _ letter ih => exact ih.imp (fun _ => .escape letter) fun _ => id
  | case9 => exact .quote
  | case11 read paired offset n rest last _ more quote control ih =>
    have backslash : n ≠ 0x5C := by
      intro hn
      cases rest with
      | nil => exact last hn rfl
      | cons n' rest => exact more n' rest hn rfl
    exact ih.imp (fun _ => .plain control quote backslash) fun _ => id
  | _ => trivial

theorem Closes.endsAt (h : Closes s rest) (start : Nat) (read : List Nat) (paired : Bool)
    (offset : Nat) : EndsAt rest (stringBody start read paired offset s) := by
  induction h generalizing read paired offset with
  | quote => exact ⟨_, _, rfl, rfl⟩
  | plain control quote backslash more ih =>
    rw [stringBody, if_neg quote, if_neg control]
    · exact ih _ _ _
    · exact fun hn _ => backslash hn
    · exact fun _ _ _ _ _ hn _ => backslash hn
    · exact fun _ _ hn _ => backslash hn
  | @escape n p s rest letter more ih =>
    have hn : n ≠ 0x75 := by
      rintro rfl
      cases letter
    rw [stringBody, if_neg hn, letter]
    · exact ih _ _ _
    · exact fun _ _ _ _ _ hu _ => hn hu
  | @code a b c d n s rest digits more ih =>
    have hs : ¬ s.isEmpty = true := by
      cases more <;> exact Bool.false_ne_true
    rw [stringBody, digits]
    dsimp only
    rw [if_neg hs]
    exact ih _ _ _

theorem ends_string (c : Cursor) : Ends (Closes c.rest) (fun _ => False) (string c) :=
  (ends_stringBody _ _ _ _ c.rest).bind (fun _ => id) fun _ _ closes => closes

theorem Closes.endsAt_string (h : Closes c.rest rest) : EndsAt rest (string c) := by
  obtain ⟨points, after, found, hrest⟩ := h.endsAt (c.offset - 1) [] false c.offset
  exact ⟨Value.ofPoints points, after, by rw [string, found]; rfl, hrest⟩

/-! ### Names of members -/

theorem ends_memberName (c : Cursor) : Ends (Named c.rest) (fun _ => False) (memberName c) := by
  rw [memberName]
  split
  · next quote =>
    obtain ⟨name, text⟩ := exists_rest_of_next? (by decide) quote
    refine (ends_string _).bind (fun _ => id) fun key after closes => ?_
    dsimp only
    split
    · next colon =>
      obtain ⟨more, behind⟩ := exists_rest_of_next? (by decide) colon
      rw [rest_next text] at closes
      exact ⟨name, after.rest, more, text, closes, (rest_skip after).symm.trans behind,
        rest_inner behind⟩
    · trivial
  · trivial

theorem Named.endsAt (h : Named c.rest rest) : EndsAt rest (memberName c) := by
  obtain ⟨name, behind, more, text, closes, colon, rfl⟩ := h
  have quote : c.next? = some '"' := next?_of_rest text
  rw [← rest_next text] at closes
  obtain ⟨key, after, found, rfl⟩ := closes.endsAt_string
  have next : after.skip.next? = some ':' := next?_of_rest ((rest_skip after).trans colon)
  rw [memberName, if_pos quote, found]
  show EndsAt _ (if _ then _ else _)
  rw [if_pos next]
  exact ⟨key, _, rfl, rest_inner (by rw [rest_skip, colon])⟩

/-! ### Entries -/

theorem ends_start (held : Held) (c : Cursor) :
    Ends (held.kind.Starts c.rest) (fun _ => False) (held.start c) := by
  cases held with
  | items read => exact rfl
  | members read => exact ends_memberName c

theorem Kind.Starts.endsAt {held : Held} (h : held.kind.Starts c.rest s) :
    EndsAt s (held.start c) := by
  cases held with
  | items read => exact ⟨.null, c, rfl, Eq.symm h⟩
  | members read => exact Named.endsAt h

section Steps

variable {held : Held}

theorem goOn_closing (h : c.rest = held.kind.closing :: rest) :
    held.goOn fuel c = .ok (held.close, c.advance 1) :=
  if_pos (by rw [h]; rfl)

theorem goOn_comma (h : c.rest = 0x2C :: rest) :
    held.goOn fuel c = held.run fuel (c.advance 1).skip := by
  have other : held.kind.closing ≠ 0x2C := by cases held.kind <;> decide
  unfold Held.goOn
  rw [h, if_neg (by simpa using other.symm), if_pos List.head?_cons]

/-- An entry is read, and then what follows it. -/
theorem run_of_starts (starts : held.kind.Starts c.rest s)
    (value : ∀ start : Cursor, start.rest = s → EndsAt rest (Json.value fuel start)) :
    ∃ (key v : Value) (after : Cursor), held.run (fuel + 1) c =
      (held.add key v).goOn fuel after.skip ∧
      after.skip.rest = afterGap rest := by
  obtain ⟨key, start, hstart, text⟩ := starts.endsAt
  obtain ⟨v, after, hvalue, rfl⟩ := value start text
  refine ⟨key, v, after, ?_, rest_skip after⟩
  rw [run_succ, hstart]
  show (Json.value fuel start >>= _) = _
  rw [hvalue]
  rfl

end Steps

/-! ### Words and numbers -/

theorem Numeral.At.not_isWord {m : Numeral} (h : m.At s rest) {word : List Nat}
    (hword : word ∈ wordTexts) : ¬ word <+: s := by
  have apart : ∀ word ∈ wordTexts, (signAt word).2.head?.any (fun n => !isDigit n) = true := by
    decide +kernel
  have other := apart word hword
  have start := signAt_append h.sign h.isWhole (m.fraction ++ (m.exponent ++ rest))
  obtain ⟨d, whole, hwhole, digit⟩ := h.isWhole.exists_cons
  rw [← h.text, hwhole] at start
  rintro ⟨more, rfl⟩
  cases word with
  | nil => cases other
  | cons n t =>
    by_cases hn : n = 0x2D
    · subst hn
      have behind : t ++ more = d :: whole ++ _ := congrArg Prod.snd start
      change t.head?.any (fun n => !isDigit n) = true at other
      cases t with
      | nil => cases other
      | cons n t =>
        rw [← (List.cons.inj behind).1] at digit
        simp [digit] at other
    · rw [signAt_cons hn] at other
      rw [List.cons_append, signAt_cons hn] at start
      have behind : n :: (t ++ more) = d :: whole ++ _ := congrArg Prod.snd start
      rw [← (List.cons.inj behind).1] at digit
      simp [digit] at other

theorem ends_atom (c : Cursor) :
    Ends (Reads .value c.rest) (fun n => LongInteger n c.rest) (atom c) := by
  by_cases hword : ∃ word ∈ wordTexts, word <+: c.rest
  · obtain ⟨word, isWord, rest, text⟩ := hword
    obtain ⟨v, found⟩ := atom_word isWord text.symm
    rw [found]
    exact .word isWord text.symm
  · push Not at hword
    rw [atom_eq_number hword]
    by_cases hnumber : ∃ m rest, Numeral.At m c.rest rest
    · obtain ⟨m, rest, stands⟩ := hnumber
      rw [number_of_at stands]
      obtain ⟨integer, long, refused⟩ | ⟨short, v, found⟩ := stands.read_eq c.offset
      · rw [refused]
        exact ⟨_, rfl, m, rest, stands, integer, rfl, long⟩
      · rw [found]
        exact .number stands short
    · push Not at hnumber
      rw [number_of_not_at hnumber]
      trivial

theorem Numeral.At.endsAt {m : Numeral} (h : m.At c.rest rest)
    (short : ¬ (m.isInteger = true ∧ digitLimit < m.whole.length)) : EndsAt rest (atom c) := by
  rw [atom_eq_number fun _ => h.not_isWord, number_of_at h]
  obtain ⟨integer, long, -⟩ | ⟨-, v, found⟩ := h.read_eq c.offset
  · exact absurd ⟨integer, long⟩ short
  · exact ⟨v, _, found, rfl⟩

theorem LongInteger.atom_eq {n : Nat} (h : LongInteger n c.rest) :
    atom c = .error (.number (.tooLong n)) := by
  obtain ⟨m, rest, stands, integer, rfl, long⟩ := h
  rw [atom_eq_number fun _ => stands.not_isWord, number_of_at stands]
  obtain ⟨-, -, refused⟩ | ⟨short, -⟩ := stands.read_eq c.offset
  · exact refused
  · exact absurd ⟨integer, long⟩ short

/-! ### First characters -/

theorem exists_cons_of_isWord {word : List Nat} (h : word ∈ wordTexts) :
    ∃ n t, word = n :: t ∧ n ≠ 0x22 ∧ n ≠ 0x5B ∧ n ≠ 0x7B ∧ n ≠ 0xFEFF := by
  have all : ∀ word ∈ wordTexts, ∃ n ∈ word.head?, n ≠ 0x22 ∧ n ≠ 0x5B ∧ n ≠ 0x7B ∧ n ≠ 0xFEFF := by
    decide +kernel
  obtain ⟨n, hn, other⟩ := all word h
  obtain ⟨t, text⟩ := List.head?_eq_some_iff.1 hn
  exact ⟨n, t, text, other⟩

theorem Numeral.At.exists_cons {m : Numeral} (h : m.At s rest) :
    ∃ n t, s = n :: t ∧ (n = 0x2D ∨ isDigit n = true) := by
  obtain ⟨n, t, whole, digit⟩ := h.isWhole.exists_cons
  rw [h.text, whole]
  obtain hsign | hsign := h.sign
  · rw [hsign]
    exact ⟨n, _, rfl, .inr digit⟩
  · rw [hsign]
    exact ⟨0x2D, _, rfl, .inl rfl⟩

theorem opensAtom_word {word : List Nat} (h : word ∈ wordTexts) (rest : List Nat) :
    OpensAtom (word ++ rest) := by
  obtain ⟨n, t, rfl, quote, list, map, -⟩ := exists_cons_of_isWord h
  rintro _ ⟨⟩
  exact ⟨quote, by rintro (_ | _) <;> assumption⟩

theorem opensAtom_number {m : Numeral} (h : m.At s rest) : OpensAtom s := by
  obtain ⟨n, t, rfl, hn⟩ := h.exists_cons
  have other (k : Nat) (hk : k ≠ 0x2D ∧ isDigit k = false) : n ≠ k := by
    rintro rfl
    obtain minus | digit := hn
    · exact hk.1 minus
    · exact absurd digit (by rw [hk.2]; exact Bool.false_ne_true)
  rintro _ ⟨⟩
  exact ⟨other _ (by decide), by rintro (_ | _) <;> exact other _ (by decide)⟩

/-- No value begins with the mark of the order of bytes. -/
theorem value_mark (h : c.rest = 0xFEFF :: s) :
    value (fuel + 1) c = .error (.at .value c.offset) := by
  have opens : OpensAtom c.rest := by
    rw [h]
    rintro _ ⟨⟩
    exact ⟨by decide, by rintro (_ | _) <;> decide⟩
  rw [value_atom opens, atom_eq_number, number_of_not_at]
  · intro m rest stands
    obtain ⟨n, t, text, hn⟩ := stands.exists_cons
    obtain ⟨rfl, -⟩ := List.cons.inj (h.symm.trans text)
    exact absurd hn (by decide)
  · rintro word isWord starts
    obtain ⟨n, t, rfl, -, -, -, mark⟩ := exists_cons_of_isWord isWord
    rw [h] at starts
    exact mark (List.cons_prefix_cons.1 starts).1

end ActionItems.Json
