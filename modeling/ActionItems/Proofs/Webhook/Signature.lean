import ActionItems.Webhook.Signature
import Mathlib.Data.List.Basic
import Mathlib.Data.List.TakeDrop
import Mathlib.Data.List.TakeWhile

/-!
# What signatures are accepted

A signature is the name of a hash function, an equals sign and a digest (`signed`). One of this form
is compared with the digest of the body under the secret, unless its digest has characters that are
not ASCII (`verify_signed`); a text of another form is no signature of any body
(`verify_of_not_signed`). As the digest of a body is made of the digits of base sixteen, the
comparison can be made for every signature that is right (`verify_eq_true_iff`), and the ones that
no comparison is made for are told apart (`verify_eq_error_iff`).
-/

namespace ActionItems.Digest

/-- The digits of base sixteen, in small letters. -/
def hexDigits : List Char := "0123456789abcdef".toList

theorem hexDigit_mem {n : Nat} (h : n < 16) : Text.hexDigit n ∈ hexDigits := by
  revert n
  decide

theorem mem_hexDigits_of_mem_hexPadded {width n : Nat} {c : Char} (h : c ∈ Text.hexPadded width n) :
    c ∈ hexDigits := by
  induction width generalizing n with
  | zero => cases h
  | succ width ih =>
    rw [Text.hexPadded, List.mem_append, List.mem_singleton] at h
    rcases h with h | rfl
    · exact ih h
    · exact hexDigit_mem (Nat.mod_lt n (by decide))

theorem mem_hexDigits_of_mem_hex {bytes : List UInt8} {c : Char} (h : c ∈ (hex bytes).toList) :
    c ∈ hexDigits := by
  rw [hex, String.toList_ofList, List.mem_flatMap] at h
  obtain ⟨b, -, hc⟩ := h
  exact mem_hexDigits_of_mem_hexPadded hc

/-- The name of a hash function. -/
def Method.name : Method → String
  | .sha1 => "sha1"
  | .sha256 => "sha256"

end ActionItems.Digest

namespace ActionItems.Webhook

open ActionItems.Digest

variable {body : List UInt8} {signature secret digest : String} {method : Method}

/-- The signature that gives a digest by a hash function. -/
def signed (method : Method) (digest : String) : String := method.name ++ "=" ++ digest

/-- Whether all characters of a text are ASCII. -/
def IsAscii (s : String) : Prop := ∀ c ∈ s.toList, c.toNat < 128

/-! ### The parts of a signature -/

theorem methodNamed?_eq_some_iff {name : List Char} :
    methodNamed? name = some method ↔ name = method.name.toList := by
  unfold methodNamed?
  split
  · next h =>
    subst h
    cases method <;> decide
  · next notNewer =>
    split
    · next h =>
      subst h
      cases method <;> decide
    · next notOlder =>
      cases method
      · exact iff_of_false (by simp) notOlder
      · exact iff_of_false (by simp) notNewer

theorem signatureParts?_append {name rest : List Char} (h : '=' ∉ name) :
    signatureParts? (name ++ '=' :: rest) = some (name, rest) := by
  have other : ∀ c ∈ name, (decide (c ≠ '=')) = true :=
    fun c hc => decide_eq_true fun he => h (he ▸ hc)
  unfold signatureParts?
  rw [List.span_eq_takeWhile_dropWhile, List.takeWhile_append_of_pos other,
    List.dropWhile_append_of_pos other]
  rw [List.takeWhile_cons_of_neg (by decide), List.dropWhile_cons_of_neg (by decide),
    List.append_nil]

theorem eq_of_signatureParts? {s name rest : List Char}
    (h : signatureParts? s = some (name, rest)) : s = name ++ '=' :: rest := by
  unfold signatureParts? at h
  rw [List.span_eq_takeWhile_dropWhile] at h
  split at h
  · next before c after hparts =>
    cases h
    obtain ⟨htake, hdrop⟩ := Prod.mk.inj hparts
    have first : (decide (c ≠ '=')) = false := by
      have := List.head?_dropWhile_not (fun c => decide (c ≠ '=')) s
      rwa [hdrop] at this
    obtain rfl : c = '=' := by simpa using first
    rw [← htake, ← hdrop, List.takeWhile_append_dropWhile]
  · cases h

theorem toList_signed :
    (signed method digest).toList = method.name.toList ++ '=' :: digest.toList := by
  simp [signed]

/-! ### Signatures of the form and others -/

/-- A signature of the form is compared with the digest of the body, or its digest is not ASCII. -/
theorem verify_signed (hsecret : secret ≠ "") : verify body (signed method digest) secret =
    if digest.toList.all fun c => c.toNat < 128 then .ok (bodyDigest method secret body == digest)
    else .error ⟨digest⟩ := by
  have parts : signatureParts? (signed method digest).toList =
      some (method.name.toList, digest.toList) := by
    rw [toList_signed]
    exact signatureParts?_append (by cases method <;> decide)
  have given : secret.isEmpty = false := by simpa using hsecret
  have named : methodNamed? method.name.toList = some method := methodNamed?_eq_some_iff.2 rfl
  simp only [verify, given, Bool.false_eq_true, if_false, parts, named, String.ofList_toList]

theorem verify_of_not_signed (h : ∀ method digest, signature ≠ signed method digest) :
    verify body signature secret = .ok false := by
  unfold verify
  split
  · rfl
  split
  · rfl
  next name rest hparts =>
  split
  · rfl
  next method hname =>
  refine absurd ?_ (h method (String.ofList rest))
  rw [← String.toList_inj, toList_signed, String.toList_ofList, ← methodNamed?_eq_some_iff.1 hname]
  exact eq_of_signatureParts? hparts

theorem isAscii_bodyDigest : IsAscii (bodyDigest method secret body) := by
  have small : ∀ c ∈ hexDigits, c.toNat < 128 := List.forall_iff_forall_mem.1 (by decide)
  exact fun c hc => small c (mem_hexDigits_of_mem_hex hc)

/-! ### What is accepted, and what no comparison is made for -/

theorem all_isAscii_iff : (digest.toList.all fun c => c.toNat < 128) = true ↔ IsAscii digest := by
  simp [List.all_eq_true, IsAscii]

/-- A signature that is not compared with `false` at once is of the form, and there is a secret. -/
theorem exists_signed_of_verify_ne (h : verify body signature secret ≠ .ok false) :
    secret ≠ "" ∧ ∃ method digest, signature = signed method digest := by
  constructor
  · rintro rfl
    exact h rfl
  · by_contra hform
    push Not at hform
    exact h (verify_of_not_signed hform)

/-- **The signatures of a body under a secret are accepted and no others.** -/
theorem verify_eq_true_iff : verify body signature secret = .ok true ↔
    secret ≠ "" ∧ ∃ method, signature = signed method (bodyDigest method secret body) := by
  constructor
  · intro h
    obtain ⟨hsecret, method, digest, rfl⟩ := exists_signed_of_verify_ne (by rw [h]; simp)
    rw [verify_signed hsecret] at h
    split at h
    · have same : bodyDigest method secret body = digest := by simpa using Except.ok.inj h
      exact ⟨hsecret, method, same ▸ rfl⟩
    · cases h
  · rintro ⟨hsecret, method, rfl⟩
    rw [verify_signed hsecret, if_pos (all_isAscii_iff.2 isAscii_bodyDigest), beq_self_eq_true]

/-- **No comparison is made for a signature whose digest is not ASCII.** -/
theorem verify_eq_error_iff {e : ForeignDigest} : verify body signature secret = .error e ↔
    secret ≠ "" ∧ ¬ IsAscii e.digest ∧ ∃ method, signature = signed method e.digest := by
  constructor
  · intro h
    obtain ⟨hsecret, method, digest, rfl⟩ := exists_signed_of_verify_ne (by rw [h]; simp)
    rw [verify_signed hsecret] at h
    split at h
    · cases h
    · next hforeign =>
      cases h
      exact ⟨hsecret, mt all_isAscii_iff.2 hforeign, method, rfl⟩
  · rintro ⟨hsecret, hforeign, method, rfl⟩
    rw [verify_signed hsecret, if_neg (mt all_isAscii_iff.1 hforeign)]

end ActionItems.Webhook
