import ActionItems.Proofs.Except
import ActionItems.Proofs.Number.Decimal
import ActionItems.Proofs.Yaml.Merging

/-!
# What is wrong with a text before its scalars are read

A text is cut into tokens, and these are put together to nodes. The tokens end in a fault of the
form, or in one of two others: the escape of a character that there is not, and a version of too
many digits (`isScanned_of_fault`). The nodes add faults of the form only (`fault_of_ofTokens?`).
-/

namespace ActionItems.Yaml

open Except ActionItems.Number

/-- The errors that a text may have before its scalars are read: besides faults of its form, an
escape that names no character, and a version of more digits than are converted. -/
inductive Error.IsScanned : Error → Prop
  | malformed {f : Fault} : IsScanned (.malformed f)
  | codePoint : IsScanned .codePoint
  | codePointSize : IsScanned .codePointSize
  | version {n : Nat} : digitLimit < n → IsScanned (.integer (.tooLong n))

attribute [simp] Error.IsScanned.malformed Error.IsScanned.codePoint Error.IsScanned.codePointSize

/-! ### Scalars -/

@[simp] theorem codePointOf_fails {n : Nat} : FailsWith Error.IsScanned (codePointOf n) := by
  simp [codePointOf]

@[simp] theorem quotedBreaks_fails {fuel : Nat} {c : Cursor} :
    FailsWith Error.IsScanned (quotedBreaks fuel c) := by
  induction fuel generalizing c with
  | zero => simp [quotedBreaks]
  | succ fuel ih =>
    rw [quotedBreaks, failsWith_ite_iff]
    refine ⟨fun _ => by simp, fun _ => ?_⟩
    dsimp only
    split <;> simp [ih]

@[simp] theorem quotedSpaces_fails {c : Cursor} : FailsWith Error.IsScanned (quotedSpaces c) := by
  unfold quotedSpaces
  dsimp only
  split <;> simp

@[simp] theorem escapeText_fails {c : Cursor} : FailsWith Error.IsScanned (escapeText c) := by
  unfold escapeText
  split
  · simp
  · split
    · simp
    · split <;> simp
    · split <;> simp

@[simp] theorem quotedParts_fails {double : Bool} {fuel : Nat} {c : Cursor} :
    FailsWith Error.IsScanned (quotedParts double fuel c) := by
  induction fuel generalizing c with
  | zero => simp [quotedParts]
  | succ fuel ih =>
    rw [quotedParts]
    split <;> simp [ih]

@[simp] theorem quotedText_fails {double : Bool} {c : Cursor} :
    FailsWith Error.IsScanned (quotedText double c) :=
  quotedParts_fails

@[simp] theorem blockText_fails {folded : Bool} {parent : Int} {c : Cursor} :
    FailsWith Error.IsScanned (blockText folded parent c) := by
  rw [blockText, failsWith_ite_iff]
  refine ⟨fun _ => by simp, fun _ => ?_⟩
  split <;> simp

/-! ### Properties and directives -/

@[simp] theorem anchorName_fails {c : Cursor} : FailsWith Error.IsScanned (anchorName c) := by
  simp [anchorName]

@[simp] theorem tagEscapes_fails {fuel : Nat} {c : Cursor} :
    FailsWith Error.IsScanned (tagEscapes fuel c) := by
  induction fuel generalizing c with
  | zero => simp [tagEscapes]
  | succ fuel ih =>
    rw [tagEscapes, failsWith_ite_iff]
    refine ⟨fun _ => ?_, fun _ => by simp⟩
    split <;> simp [ih]

@[simp] theorem tagChars_fails {fuel : Nat} {c : Cursor} :
    FailsWith Error.IsScanned (tagChars fuel c) := by
  induction fuel generalizing c with
  | zero => simp [tagChars]
  | succ fuel ih =>
    rw [tagChars, failsWith_ite_iff]
    constructor
    · intro _
      simp only [failsWith_bind_iff, tagEscapes_fails, true_and]
      rintro ⟨bytes, after⟩ -
      split <;> simp [ih]
    · intro _
      split <;> simp [ih]

@[simp] theorem tagText_fails {c : Cursor} : FailsWith Error.IsScanned (tagText c) := by
  simp [tagText]

@[simp] theorem tagHandle_fails {c : Cursor} : FailsWith Error.IsScanned (tagHandle c) := by
  simp [tagHandle]

@[simp] theorem tagToken_fails {c : Cursor} : FailsWith Error.IsScanned (tagToken c) := by
  simp [tagToken]

@[simp] theorem versionNumber_fails {c : Cursor} : FailsWith Error.IsScanned (versionNumber c) := by
  have digits : ∀ d ∈ (c.takeWhile Char.isDigit).1, Text.isDigit d = true := fun d hd =>
    Text.isDigit_of_isDigit (List.all_eq_true.1 List.all_takeWhile d hd)
  simp only [versionNumber, failsWith_ite_iff]
  refine ⟨fun _ => by simp, fun hne => ?_⟩
  obtain ⟨n, hn⟩ := readInteger_digits (by simpa using hne) digits
  rw [hn]
  split
  · simp
  · next e he =>
    split at he
    · next hlimit =>
      cases he
      exact failsWith_error.2 (.version hlimit)
    · cases he

@[simp] theorem directiveBody_fails {name : String} {c : Cursor} :
    FailsWith Error.IsScanned (directiveBody name c) := by
  simp [directiveBody]

@[simp] theorem directiveToken_fails {c : Cursor} :
    FailsWith Error.IsScanned (directiveToken c) := by
  simp only [directiveToken, failsWith_ite_iff, failsWith_bind_iff, failsWith_throw,
    Error.IsScanned.malformed, directiveBody_fails, true_and]
  refine ⟨fun _ _ _ directive _ => ?_, fun _ directive _ => ?_⟩ <;>
  · split <;> simp

/-! ### Tokens -/

namespace Lexer

@[simp] theorem dropStale_fails {l : Lexer} : FailsWith Error.IsScanned l.dropStale := by
  simp [dropStale]

@[simp] theorem dropPending_fails {l : Lexer} : FailsWith Error.IsScanned l.dropPending := by
  unfold dropPending
  split <;> simp

@[simp] theorem savePending_fails {l : Lexer} : FailsWith Error.IsScanned l.savePending := by
  simp [savePending]

@[simp] theorem openBlock_fails {l : Lexer} {t : Token} :
    FailsWith Error.IsScanned (l.openBlock t) := by
  unfold openBlock
  simp only [failsWith_ite_iff]
  refine ⟨fun _ => ⟨fun _ => ?_, by simp⟩, by simp⟩
  split <;> simp

@[simp] theorem keyToken_fails {l : Lexer} {read : Cursor → Except Error (Token × Cursor)}
    (h : ∀ c, FailsWith Error.IsScanned (read c)) :
    FailsWith Error.IsScanned (l.keyToken read) := by
  simp [keyToken, h]

@[simp] theorem value_fails {l : Lexer} : FailsWith Error.IsScanned l.value := by
  unfold value
  split <;> simp

theorem dispatch_fails {l : Lexer} {c : Char} : FailsWith Error.IsScanned (l.dispatch c) := by
  simp [dispatch, directive, documentMark, openFlow, closeFlow, flowEntry, blockEntry, explicitKey,
    block, plain]

theorem readToken_fails {l : Lexer} : FailsWith Error.IsScanned l.readToken := by
  simp only [readToken, approach, failsWith_bind_iff, dropStale_fails, failsWith_pure, true_and,
    implies_true]
  intro l' _
  split
  · simp [endStream]
  · exact dispatch_fails

/-- The fault that a reading of tokens ends with is met before scalars are read. -/
theorem run_fault {fuel : Nat} :
    ∀ {l : Lexer} {e : Error}, (run fuel l).fault? = some e → e.IsScanned := by
  induction fuel with
  | zero =>
    intro l e h
    rw [run] at h
    cases h
    exact .malformed
  | succ fuel ih =>
    intro l e h
    rw [run] at h
    split at h
    · cases h
    · split at h
      · next he =>
        cases h
        exact dropStale_fails _ he
      · split at h
        · next he =>
          cases h
          exact readToken_fails _ he
        · exact ih h

end Lexer

theorem isScanned_of_fault {s : List Char} {e : Error}
    (h : (TokenStream.ofText s).fault? = some e) : e.IsScanned := by
  unfold TokenStream.ofText at h
  split at h
  · exact Lexer.run_fault h
  · cases h
    exact .malformed

/-! ### Nodes -/

namespace Composer

/-- The reading fails with a fault of the form or with the one where the tokens end, which stays the
same. -/
def Keeps {α : Type} (m : Step α) : Prop :=
  ∀ c : Composer, Meets m c (fun _ c' => c'.fault = c.fault) fun e => e.IsMalformed ∨ e = c.fault

namespace Keeps

variable {α β : Type}

theorem bind {m : Step α} {f : α → Step β} (h : Keeps m) (h' : ∀ a, Keeps (f a)) :
    Keeps (m >>= f) := by
  intro c
  rw [Meets.bind_iff]
  refine (h c).mono (fun a c' hc => ?_) fun _ => id
  have := h' a c'
  rwa [hc] at this

theorem pure {a : α} : Keeps (Pure.pure a) := fun _ => rfl

theorem get : Keeps (MonadState.get : Step Composer) := fun _ => rfl

theorem modify {f : Composer → Composer} (h : ∀ c, (f c).fault = c.fault) : Keeps (modify f) := h

theorem fail {f : Fault} : Keeps (Composer.fail f : Step α) := fun _ => .inl ⟨f, rfl⟩

theorem peek : Keeps peek := by
  intro c
  simp only [Composer.peek, Meets.bind_iff, Meets.get_iff]
  split
  · rfl
  · exact .inr rfl

theorem skip : Keeps skip := fun _ => rfl

theorem add {n : Node} : Keeps (add n) := fun _ => rfl

theorem fill {p : Nat} {content : Content} : Keeps (fill p content) := fun _ => rfl

theorem absent : Keeps absent := add

theorem resolveTag {t : Option String × String} : Keeps (resolveTag t) := by
  obtain ⟨handle?, suffix⟩ := t
  cases handle? with
  | none => exact pure
  | some handle =>
    refine bind get fun c => ?_
    split
    · exact pure
    · exact fail

theorem mapM {f : α → Step β} (h : ∀ a, Keeps (f a)) (a? : Option α) : Keeps (a?.mapM f) := by
  cases a? with
  | none => exact pure
  | some a => exact bind (h a) fun _ => pure

theorem properties : Keeps properties := by
  refine bind peek fun t => ?_
  split
  · refine bind skip fun _ => bind peek fun t => ?_
    split
    · exact bind skip fun _ => pure
    · exact pure
  · refine bind skip fun _ => bind peek fun t => ?_
    split
    · exact bind skip fun _ => pure
    · exact pure
  · exact pure

theorem define {anchor? : Option String} {n : Node} : Keeps (define anchor? n) := by
  unfold Composer.define
  split
  · exact add
  · refine bind get fun c => ?_
    split
    · exact bind fail fun _ => bind add fun _ => bind (modify fun _ => rfl) fun _ => pure
    · exact bind add fun _ => bind (modify fun _ => rfl) fun _ => pure

end Keeps

/-- What the readings of nodes and of parts of collections do with some fuel. -/
structure Composes (fuel : Nat) : Prop where
  node : ∀ block bare, Keeps (node fuel block bare)
  blockItems : ∀ read, Keeps (blockItems fuel read)
  bareItems : ∀ read, Keeps (bareItems fuel read)
  blockPart : Keeps (blockPart fuel)
  blockEntries : ∀ read, Keeps (blockEntries fuel read)
  flowItems : ∀ first read, Keeps (flowItems fuel first read)
  flowEntries : ∀ first read, Keeps (flowEntries fuel first read)

theorem composes_zero : Composes 0 where
  node _ _ := by rw [node]; exact .fail
  blockItems _ := by rw [blockItems]; exact .fail
  bareItems _ := by rw [bareItems]; exact .fail
  blockPart := by rw [blockPart]; exact .fail
  blockEntries _ := by rw [blockEntries]; exact .fail
  flowItems _ _ := by rw [flowItems]; exact .fail
  flowEntries _ _ := by rw [flowEntries]; exact .fail

/-- Each part reads tokens and adds nodes, and calls the parts with less fuel in between. -/
theorem composes_succ {fuel : Nat} (h : Composes fuel) : Composes (fuel + 1) := by
  refine ⟨fun block bare => ?_, fun read => ?_, fun read => ?_, ?_, fun read => ?_,
    fun first read => ?_, fun first read => ?_⟩
  on_goal 1 => rw [node]
  on_goal 2 => rw [blockItems]
  on_goal 3 => rw [bareItems]
  on_goal 4 => rw [blockPart]
  on_goal 5 => rw [blockEntries]
  on_goal 6 => rw [flowItems]
  on_goal 7 => rw [flowEntries]
  all_goals repeat' first
    | with_reducible refine .bind ?_ fun _ => ?_
    | with_reducible first
      | exact .peek
      | exact .skip
      | exact .pure
      | exact .fail
      | exact .absent
      | exact .add
      | exact .fill
      | exact .define
      | exact .properties
      | exact .get
      | exact .mapM (fun _ => .resolveTag) _
      | exact h.node _ _
      | exact h.blockItems _
      | exact h.bareItems _
      | exact h.blockPart
      | exact h.blockEntries _
      | exact h.flowItems _ _
      | exact h.flowEntries _ _
    | split

theorem composes (fuel : Nat) : Composes fuel := by
  induction fuel with
  | zero => exact composes_zero
  | succ fuel ih => exact composes_succ ih

theorem directives_keeps (fuel : Nat) :
    ∀ versioned handles, Keeps (directives fuel versioned handles) := by
  induction fuel with
  | zero =>
    intro versioned handles
    rw [directives]
    exact .fail
  | succ fuel ih =>
    intro versioned handles
    rw [directives]
    refine .bind .peek fun t => ?_
    split
    · refine .bind .skip fun _ => ?_
      split
      · split
        · exact .bind .fail fun _ => ih _ _
        · exact ih _ _
      · split
        · exact .bind .fail fun _ => ih _ _
        · exact ih _ _
      · exact ih _ _
    · exact .pure

theorem documentStart_keeps {fuel : Nat} : Keeps (documentStart fuel) := by
  refine .bind (directives_keeps fuel _ _) fun handles => .bind .peek fun t => ?_
  split
  · exact .bind .skip fun _ => .modify fun _ => rfl
  · exact .fail

theorem skipEnds_keeps (fuel : Nat) : Keeps (skipEnds fuel) := by
  induction fuel with
  | zero => exact .pure
  | succ fuel ih =>
    refine .bind .peek fun t => ?_
    split
    · exact .bind .skip fun _ => ih
    · exact .pure

theorem streamEnd_keeps {fuel : Nat} : Keeps (streamEnd fuel) := by
  refine .bind (skipEnds_keeps fuel) fun _ => .bind .peek fun t => ?_
  split
  · exact .pure
  · exact .bind documentStart_keeps fun _ => .fail

theorem document_keeps (fuel : Nat) : Keeps (document fuel) := by
  have read {block bare : Bool} : Keeps (do
      let root ← node fuel block bare
      streamEnd fuel
      return some root) :=
    .bind ((composes fuel).node _ _) fun _ => .bind streamEnd_keeps fun _ => .pure
  have absent : Keeps (do
      let root ← absent
      streamEnd fuel
      return some root) := .bind .absent fun _ => .bind streamEnd_keeps fun _ => .pure
  refine .bind .peek fun t => ?_
  split
  · exact .pure
  · refine .bind documentStart_keeps fun _ => .bind .peek fun t => ?_
    split <;> first | exact absent | exact read
  · refine .bind documentStart_keeps fun _ => .bind .peek fun t => ?_
    split <;> first | exact absent | exact read
  · exact read

end Composer

/-- **Tokens that are no document have not the right form, or the text has the fault in which they
end.** -/
theorem fault_of_ofTokens? {s : TokenStream} {e : Error} (h : Graph.ofTokens? s = .error e) :
    e.IsMalformed ∨ s.fault? = some e := by
  let start : Composer := { tokens := s.tokens, fault := s.fault?.getD (.malformed .form) }
  have meets := Composer.document_keeps (4 * s.tokens.length + 8) start
  have run : Graph.ofTokens? s =
      ((Composer.document (4 * s.tokens.length + 8)).run start).bind fun r =>
      .ok (r.1.map fun root => (root, r.2.nodes)) := rfl
  rw [run] at h
  unfold Meets at meets
  generalize StateT.run _ _ = r at meets h
  cases r with
  | ok r => cases h
  | error e' =>
    cases h
    rcases meets with malformed | rfl
    · exact .inl malformed
    · cases hfault : s.fault? with
      | none => exact .inl ⟨.form, by simp [start, hfault]⟩
      | some e => exact .inr (by simp [start, hfault])

end ActionItems.Yaml
