import ActionItems.Proofs.Except
import ActionItems.Proofs.Webhook.Signature
import ActionItems.Server.Handler

/-!
# Answers to deliveries that are not signed

A delivery that reaches the place of events is answered by what its signature is found to be, before
its body is read and without a call: with a refusal if it is not that of the body, and as a failure
of the server if no comparison can be made. Which signatures these are is known for every text
(`answered_by_signature`).
-/

namespace ActionItems.Server

open ActionItems.Digest ActionItems.Webhook
open ActionItems.GitHub (Program)

variable {app : App} {pages : Nat} {r : Request} {secret : String}

theorem handle_delivery [CharNames] (hmethod : r.method.toUpper = "POST")
    (hplace : locate r.address = .endpoint .events) :
    handle app pages r = Program.bind (app.receive pages r).run fun
      | .ok response => .done response
      | .error _ => .done (.empty 500) := by
  have allows : Endpoint.events.allows "POST" = true := by decide
  unfold handle
  simp only [hplace, hmethod, allows, if_true]
  rw [App.answer, if_neg (by decide)]
  refine congrArg (Program.bind _) (funext fun result => ?_)
  cases result <;> rfl

theorem accepts_eq (hsecret : app.secret = .text secret) :
    app.accepts r = (verify r.body r.signature secret).mapError .digest := by
  rw [App.accepts, hsecret]

theorem handle_unsigned [CharNames] (hmethod : r.method.toUpper = "POST")
    (hplace : locate r.address = .endpoint .events) (hsecret : app.secret = .text secret)
    (h : verify r.body r.signature secret = .ok false) :
    handle app pages r = .done (.refused 401 "Invalid signature") := by
  have received : (app.receive pages r).run = .done (.ok (.refused 401 "Invalid signature")) := by
    rw [App.receive, accepts_eq hsecret, h]
    rfl
  rw [handle_delivery hmethod hplace, received]
  rfl

theorem handle_uncompared [CharNames] (hmethod : r.method.toUpper = "POST")
    (hplace : locate r.address = .endpoint .events) (hsecret : app.secret = .text secret)
    {e : ForeignDigest} (h : verify r.body r.signature secret = .error e) :
    handle app pages r = .done (.empty 500) := by
  have received : (app.receive pages r).run = .done (.error (.digest e)) := by
    rw [App.receive, accepts_eq hsecret, h]
    rfl
  rw [handle_delivery hmethod hplace, received]
  rfl

theorem exists_signed_iff {signature : String} (digest : Method → String) :
    (∃ method, signature = signed method (digest method)) ↔
      signature = "sha256=" ++ digest .sha256 ∨ signature = "sha1=" ++ digest .sha1 := by
  constructor
  · rintro ⟨method, rfl⟩
    cases method
    · exact .inr rfl
    · exact .inl rfl
  · rintro (rfl | rfl)
    · exact ⟨.sha256, rfl⟩
    · exact ⟨.sha1, rfl⟩

/-- **A delivery is answered by what its signature is.** The signatures of a body are those that
give its digest under the secret by one of the two hash functions; with a secret, a signature of
this form whose digest is not ASCII is not compared; every other one is false. A delivery with a
false signature is refused, and one with a signature that is not compared is answered as a failure
of the server. -/
theorem answered_by_signature [CharNames] (body : List UInt8) (signature secret : String) :
    (verify body signature secret = .ok true ↔ secret ≠ "" ∧
      (signature = "sha256=" ++ hex (Method.sha256.keyed (Bytes.encode secret) body) ∨
        signature = "sha1=" ++ hex (Method.sha1.keyed (Bytes.encode secret) body))) ∧
    (∀ e, verify body signature secret = .error e ↔ secret ≠ "" ∧ ¬ IsAscii e.digest ∧
      (signature = "sha256=" ++ e.digest ∨ signature = "sha1=" ++ e.digest)) ∧
    ∀ (app : App) (pages : Nat) (r : Request), app.secret = .text secret →
      r.method.toUpper = "POST" →
      locate r.address = .endpoint .events → r.body = body → r.signature = signature →
      (verify body signature secret = .ok false →
        handle app pages r = .done (.refused 401 "Invalid signature")) ∧
      ∀ e, verify body signature secret = .error e → handle app pages r = .done (.empty 500) := by
  refine ⟨?_, fun e => ?_, ?_⟩
  · rw [verify_eq_true_iff, exists_signed_iff fun method => bodyDigest method secret body]
    rfl
  · rw [verify_eq_error_iff, exists_signed_iff fun _ => e.digest]
  · rintro app pages r hsecret hmethod hplace rfl rfl
    exact ⟨handle_unsigned hmethod hplace hsecret,
      fun e => handle_uncompared hmethod hplace hsecret⟩

attribute [local instance] CharNames.ascii

/-- The right signature of a body is accepted, with one more digit behind it a delivery is refused,
and with a letter behind it that is not ASCII the server fails. -/
theorem answered_by_signature_behind_digest :
    let body := Bytes.encode "\x7b\x7d"
    let right := "sha1=" ++ hex (Method.sha1.keyed (Bytes.encode "s") body)
    let app : App := ⟨⟨.int 7, .text "app"⟩, .text "s"⟩
    let request (signature : String) : Request :=
      ⟨"POST", "/", [("X-Hub-Signature", signature)], body⟩
    verify body right "s" = .ok true ∧
      handle app 1 (request (right ++ "0")) = .done (.refused 401 "Invalid signature") ∧
      handle app 1 (request (right ++ "é")) = .done (.empty 500) := by
  intro body right app request
  have post : "POST".toUpper = "POST" := by decide +kernel
  have place : locate "/" = .endpoint .events := by decide +kernel
  have longer : verify body (right ++ "0") "s" = .ok false :=
    Except.eq_ok_of_toOption (by decide +kernel)
  obtain ⟨accepted, -, -⟩ := answered_by_signature body right "s"
  obtain ⟨-, -, answers⟩ := answered_by_signature body (right ++ "0") "s"
  obtain ⟨-, foreign, answers'⟩ := answered_by_signature body (right ++ "é") "s"
  have uncompared : verify body (right ++ "é") "s" =
      .error ⟨hex (Method.sha1.keyed (Bytes.encode "s") body) ++ "é"⟩ :=
    (foreign _).2 ⟨by
      decide, fun ascii => absurd (ascii 'é' (by simp)) (by decide), .inr String.append_assoc⟩
  refine ⟨accepted.2 ⟨by decide, .inr rfl⟩, ?_, ?_⟩
  · exact (answers app 1 (request (right ++ "0")) rfl post place rfl (by decide +kernel)).1 longer
  · exact (answers' app 1 (request (right ++ "é")) rfl post place rfl (by decide +kernel)).2
      _ uncompared

end ActionItems.Server
