import ActionItems.Proofs.Json.Reading
import ActionItems.Server.Handler

/-!
# Bodies of deliveries

A body is decoded, read as a JSON text and then as an event. What becomes of it is settled by its
text (`body_outcome`): a text that holds a value is an event or refused as none, and every other one
is refused as no JSON, unless an integer with too many digits is come to.
-/

namespace ActionItems.Json

open ActionItems.Bytes ActionItems.Number

variable {bytes : List UInt8}

/-- The code points that bytes are decoded to. -/
def points? (bytes : List UInt8) : Option (List Nat) :=
  (Encoding.detect bytes).1.decode? (Encoding.detect bytes).2

theorem readBytes_eq (bytes : List UInt8) : readBytes bytes =
    match points? bytes with
    | none => .error .encoding
    | some points => (readPoints points).mapError .text := rfl

/-! ### ASCII -/

/-- Bytes of ASCII, none of which is zero. -/
def IsPlain (bytes : List UInt8) : Prop := ∀ b ∈ bytes, b ≠ 0 ∧ b.toNat < 0x80

theorem piecesFrom_isPlain (h : IsPlain bytes) (offset : Nat) :
    piecesFrom true offset none bytes = bytes.map fun b => .point b.toNat := by
  induction bytes generalizing offset with
  | nil => rfl
  | cons b bytes ih =>
    obtain ⟨⟨-, small⟩, rest⟩ := List.forall_mem_cons.1 h
    have first : step true offset none b = ([.point b.toNat], none) := by
      simp [step, begin?, lead, small]
    rw [piecesFrom, first]
    dsimp only
    rw [ih rest]
    rfl

theorem strictPoints_points (points : List Nat) :
    strictPoints (points.map .point) = .ok points := by
  induction points with
  | nil => rfl
  | cons n points ih => rw [List.map_cons, strictPoints, ih]

theorem ofZeros_isPlain (h : IsPlain bytes) : Encoding.ofZeros bytes = .utf8 := by
  have nonzero (b : UInt8) (hb : b ∈ bytes) : ¬ b = 0 := (h b hb).1
  unfold Encoding.ofZeros
  split
  · next a b c d more => rw [if_neg (nonzero a (by simp)), if_neg (nonzero b (by simp))]
  · next a b => rw [if_neg (nonzero a (by simp)), if_neg (nonzero b (by simp))]
  · rfl

theorem detect_isPlain (h : IsPlain bytes) : Encoding.detect bytes = (.utf8, bytes) := by
  have marks : ∀ mark ∈ byteOrderMarks, ∃ b ∈ mark.1, ¬ (b ≠ 0 ∧ b.toNat < 0x80) := by decide
  unfold Encoding.detect
  rw [List.find?_eq_none.2, ofZeros_isPlain h]
  intro mark hmark starts
  obtain ⟨b, hb, foreign⟩ := marks mark hmark
  exact foreign (h b ((List.isPrefixOf_iff_prefix.1 starts).subset hb))

theorem points?_isPlain (h : IsPlain bytes) : points? bytes = some (bytes.map UInt8.toNat) := by
  rw [points?, detect_isPlain h]
  have points : bytes.map (fun b => Piece.point b.toNat) = (bytes.map UInt8.toNat).map .point := by
    rw [List.map_map]
    rfl
  show (decodeLoose bytes).toOption = _
  rw [decodeLoose, pieces, piecesFrom_isPlain h, points, strictPoints_points]
  rfl

theorem longInteger_ones {n : Nat} (h : digitLimit < n) :
    LongInteger n (List.replicate n 0x31) := by
  have whole : IsWhole (List.replicate n 0x31) := by
    obtain ⟨k, rfl⟩ : ∃ k, n = k + 1 := Nat.exists_eq_succ_of_ne_zero (by omega)
    refine .inr ⟨⟨by simp, fun d hd => ?_⟩, by simp [List.replicate_succ]⟩
    rw [List.eq_of_mem_replicate hd]
    rfl
  refine ⟨⟨[], List.replicate n 0x31, [], []⟩, [], ?_, rfl, List.length_replicate, h⟩
  exact {
    text := by simp
    sign := .inl rfl
    isWhole := whole
    whole := ⟨.inr whole, fun t ht _ => by simpa using ht.length_le⟩
    fraction := .of_none (by rintro _ ht ⟨digits, rfl, -⟩; simp at ht)
    exponent := .of_none (by rintro _ ht ⟨mark, sign, digits, rfl, -⟩; simp at ht) }

theorem meetsLong_ones {n : Nat} (h : digitLimit < n) :
    MeetsLong .value (afterGap (List.replicate n 0x31)) n := by
  have gap : afterGap (List.replicate n 0x31) = List.replicate n 0x31 := by
    cases n <;> rfl
  rw [gap]
  exact ⟨_, .here, longInteger_ones h⟩

end ActionItems.Json

namespace ActionItems.Server

open ActionItems.Json ActionItems.Number ActionItems.Webhook

variable {body : List UInt8}

/-! ### Bodies and their texts -/

theorem ofBytes_eq (body : List UInt8) : Event.ofBytes body =
    match points? body with
    | none => .error .json
    | some points =>
      match readPoints points with
      | .ok v =>
        match Event.ofValue? v with
        | some event => .ok event
        | none => .error .event
      | .error (.number e) => .error (.number e)
      | .error (.malformed _) => .error .json := by
  rw [Event.ofBytes, readBytes_eq]
  cases points? body with
  | none => rfl
  | some points =>
    dsimp only
    rcases readPoints points with (_ | _) | _ <;> rfl

/-- A body is refused for a number if and only if an integer with too many digits is come to. -/
theorem ofBytes_eq_number_iff {e : IntegerError} : Event.ofBytes body = .error (.number e) ↔
    ∃ points n, points? body = some points ∧ MeetsLong .value (afterGap points) n ∧
      e = .tooLong n := by
  rw [ofBytes_eq]
  constructor
  · intro h
    split at h
    · cases h
    · next points hpoints =>
      split at h
      · split at h <;> cases h
      · next found =>
        cases h
        obtain ⟨n, he, meets⟩ := readPoints_eq_number_iff.1 found
        exact ⟨points, n, hpoints, meets, he⟩
      · cases h
  · rintro ⟨points, n, hpoints, meets, rfl⟩
    rw [hpoints]
    dsimp only
    rw [readPoints_eq_number_iff.2 ⟨n, rfl, meets⟩]

/-- A body is an event or none if and only if its text holds a value. -/
theorem ofBytes_event_iff :
    ((∃ event, Event.ofBytes body = .ok event) ∨ Event.ofBytes body = .error .event) ↔
    ∃ points, points? body = some points ∧ IsText points := by
  rw [ofBytes_eq]
  constructor
  · intro h
    split at h
    · rcases h with ⟨_, ⟨⟩⟩ | ⟨⟨⟩⟩
    · next points hpoints =>
      split at h
      · next v found => exact ⟨points, hpoints, exists_readPoints_iff.1 ⟨v, found⟩⟩
      · rcases h with ⟨_, ⟨⟩⟩ | ⟨⟨⟩⟩
      · rcases h with ⟨_, ⟨⟩⟩ | ⟨⟨⟩⟩
  · rintro ⟨points, hpoints, text⟩
    obtain ⟨v, found⟩ := exists_readPoints_iff.2 text
    rw [hpoints]
    dsimp only
    rw [found]
    dsimp only
    cases Event.ofValue? v with
    | none => exact .inr rfl
    | some event => exact .inl ⟨event, rfl⟩

theorem ofBytes_eq_json_iff : Event.ofBytes body = .error .json ↔
    ∀ points, points? body = some points →
      ¬ IsText points ∧ ∀ n, ¬ MeetsLong .value (afterGap points) n := by
  constructor
  · intro h points hpoints
    refine ⟨fun text => ?_, fun n meets => ?_⟩
    · have read := ofBytes_event_iff.2 ⟨points, hpoints, text⟩
      rw [h] at read
      rcases read with ⟨_, ⟨⟩⟩ | ⟨⟨⟩⟩
    · have refused := ofBytes_eq_number_iff.2 ⟨points, n, hpoints, meets, rfl⟩
      rw [h] at refused
      cases refused
  · intro h
    have other : ¬ ∃ points, points? body = some points ∧ IsText points :=
      fun ⟨points, hpoints, text⟩ => (h points hpoints).1 text
    rcases outcome : Event.ofBytes body with (_ | _ | e) | event
    · rfl
    · exact absurd (ofBytes_event_iff.1 (.inr outcome)) other
    · obtain ⟨points, n, hpoints, meets, -⟩ := ofBytes_eq_number_iff.1 outcome
      exact absurd meets ((h points hpoints).2 n)
    · exact absurd (ofBytes_event_iff.1 (.inl ⟨event, outcome⟩)) other

theorem ofBytes_settled_iff :
    ((∃ event, Event.ofBytes body = .ok event) ∨
      ∃ e, (e = .json ∨ e = .event) ∧ Event.ofBytes body = .error e) ↔
      ∀ points n, points? body = some points → ¬ MeetsLong .value (afterGap points) n := by
  constructor
  · intro h points n hpoints meets
    have refused := ofBytes_eq_number_iff.2 ⟨points, n, hpoints, meets, rfl⟩
    rw [refused] at h
    rcases h with ⟨_, ⟨⟩⟩ | ⟨_, rfl | rfl, ⟨⟩⟩
  · intro h
    rcases outcome : Event.ofBytes body with (_ | _ | e) | event
    · exact .inr ⟨_, .inl rfl, rfl⟩
    · exact .inr ⟨_, .inr rfl, rfl⟩
    · obtain ⟨points, n, hpoints, meets, -⟩ := ofBytes_eq_number_iff.1 outcome
      exact absurd meets (h points n hpoints)
    · exact .inl ⟨event, rfl⟩

/-! ### Answers -/

theorem deliver_of_refused [CharNames] {app : App} {pages : Nat} {r : Request} {e : BodyError}
    (h : Event.ofBytes r.body = .error e) (he : e = .json ∨ e = .event) :
    app.deliver pages r = pure (.refused 400 e.message) := by
  rw [App.deliver, h]
  obtain rfl | rfl := he <;> rfl

theorem deliver_of_number [CharNames] {app : App} {pages : Nat} {r : Request} {e : IntegerError}
    (h : Event.ofBytes r.body = .error (.number e)) : app.deliver pages r = throw (.number e) := by
  rw [App.deliver, h]

/-- **What becomes of a body is settled by its text.** Unless an integer with too many digits is
come to in reading it, the body is an event or it is refused, and a body that is refused is answered
as a bad request. An integer with too many digits is a failure with their number. The text of an
event, and of a body that is refused as none, holds a value; a body is refused as no JSON if its
text holds no value, or if it is no text. -/
theorem body_outcome [CharNames] (body : List UInt8) :
    ((∃ event, Event.ofBytes body = .ok event) ∨
      (∃ e, (e = .json ∨ e = .event) ∧ Event.ofBytes body = .error e) ↔
      ∀ points n, points? body = some points → ¬ MeetsLong .value (afterGap points) n) ∧
    (∀ e, Event.ofBytes body = .error (.number e) ↔
      ∃ points n, points? body = some points ∧ MeetsLong .value (afterGap points) n ∧
        e = .tooLong n) ∧
    ((∃ event, Event.ofBytes body = .ok event) ∨ Event.ofBytes body = .error .event ↔
      ∃ points, points? body = some points ∧ IsText points) ∧
    (Event.ofBytes body = .error .json ↔
      ∀ points, points? body = some points →
        ¬ IsText points ∧ ∀ n, ¬ MeetsLong .value (afterGap points) n) ∧
    ∀ (app : App) (pages : Nat) (r : Request), r.body = body →
      (∀ e, e = .json ∨ e = .event → Event.ofBytes body = .error e →
        app.deliver pages r = pure (.refused 400 e.message)) ∧
      ∀ e, Event.ofBytes body = .error (.number e) → app.deliver pages r = throw (.number e) := by
  refine ⟨ofBytes_settled_iff, fun e => ofBytes_eq_number_iff, ofBytes_event_iff,
    ofBytes_eq_json_iff, ?_⟩
  rintro app pages r rfl
  exact ⟨fun e he h => deliver_of_refused h he, fun e h => deliver_of_number h⟩

attribute [local instance] CharNames.ascii

/-- An object without a repository is refused as a bad request, and an integer of 4301 digits is a
failure for their number. -/
theorem body_outcome_ones :
    let app : App := ⟨⟨.int 7, .text "app"⟩, .text "s"⟩
    let empty := Bytes.encode "\x7b\x7d"
    let ones : List UInt8 := List.replicate 4301 0x31
    app.deliver 1 ⟨"POST", "/", [], empty⟩ = pure (.refused 400 "Invalid webhook payload") ∧
      app.deliver 1 ⟨"POST", "/", [], ones⟩ = throw (.number (.tooLong 4301)) := by
  intro app empty ones
  have none : Event.ofBytes empty = .error .event := by decide +kernel
  have plain : IsPlain ones := fun b hb => by rw [List.eq_of_mem_replicate hb]; decide
  have points : points? ones = some (List.replicate 4301 0x31) := by
    rw [points?_isPlain plain, List.map_replicate]
    rfl
  obtain ⟨-, -, -, -, answers⟩ := body_outcome empty
  obtain ⟨-, number, -, -, answers'⟩ := body_outcome ones
  have long := (number (.tooLong 4301)).2 ⟨_, 4301, points, meetsLong_ones (by decide), rfl⟩
  exact ⟨(answers app 1 ⟨"POST", "/", [], empty⟩ rfl).1 .event (.inr rfl) none,
    (answers' app 1 ⟨"POST", "/", [], ones⟩ rfl).2 _ long⟩

end ActionItems.Server
