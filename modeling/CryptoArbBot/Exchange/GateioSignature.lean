import CryptoArbBot.Exchange.Submission

/-!
# The signature of a Gate.io request (exchange/gateio/gateio_auth.cpp, common/crypto_utils.cpp)

The comment in `sign_request` names the hex text of the body's digest. The code
signs what `CryptoUtils::sha512` returns, and that is the digest's raw bytes.
-/

namespace CryptoArbBot

namespace Gateio

/-- The text that the comment in `sign_request` describes. -/
def documentedPrehash (P : Platform) (method path query body timestamp : String) : String :=
  method ++ "\n" ++ path ++ "\n" ++ query ++ "\n" ++ toHex (P.sha512 body) ++ "\n" ++ timestamp

/-- The signature is the one of that text with the value of the `Timestamp` header. -/
def Documented (P : Platform) (a : Adapter) (method path query body : String)
    (headers : List (String × String)) : Prop :=
  ∃ timestamp, ("Timestamp", timestamp) ∈ headers ∧
    ("SIGN", P.hmacSha512Hex a.secretKey (documentedPrehash P method path query body timestamp)) ∈ headers

/-- The text that is signed: the digest is raw and the timestamp is of the second reading. -/
def signedPrehash (P : Platform) (clock : Clock) (method path query body : String) : String :=
  method ++ "\n" ++ path ++ "\n" ++ query ++ "\n" ++ P.sha512 body ++ "\n" ++ Nat.repr (clock 1 / 1000)

end Gateio

def Platform.withHmac512 (P : Platform) (hmac : String → String → String) : Platform :=
  { P with hmacSha512 := hmac }

/-! ### Hex texts -/

theorem length_flatMap_hexByte (bytes : List Char) : (bytes.flatMap hexByte).length = 2 * bytes.length := by
  induction bytes with
  | nil => rfl
  | cons byte rest ih =>
    rw [List.flatMap_cons, List.length_append, ih, List.length_cons]
    simp only [hexByte, List.length_cons, List.length_nil]
    omega

theorem digitChar_ne_newline {n : ℕ} (h : n < 16) : Nat.digitChar n ≠ '\n' := by
  have hall : ∀ n < 16, Nat.digitChar n ≠ '\n' := by decide
  exact hall n h

theorem newline_not_mem_hex (bytes : List Char) : '\n' ∉ bytes.flatMap hexByte := by
  intro hmem
  obtain ⟨byte, -, hbyte⟩ := List.mem_flatMap.mp hmem
  rcases List.mem_cons.mp hbyte with hhigh | hlow
  · exact digitChar_ne_newline (Nat.mod_lt _ (by decide)) hhigh.symm
  · exact digitChar_ne_newline (Nat.mod_lt _ (by decide)) (List.mem_singleton.mp hlow).symm

/-- Raw bytes end at a newline where their hex text still has digits. -/
theorem raw_ne_hex {raw : String} (h : raw ≠ "") (rest rest' : String) :
    raw ++ "\n" ++ rest ≠ toHex raw ++ "\n" ++ rest' := by
  intro hsame
  have hlists : raw.toList ++ '\n' :: rest.toList =
      raw.toList.flatMap hexByte ++ '\n' :: rest'.toList := by
    simpa [toHex] using congrArg String.toList hsame
  have hpos : 0 < raw.toList.length := by
    rw [List.length_pos_iff]
    simpa using h
  have hlen := length_flatMap_hexByte raw.toList
  have hat := congrArg (fun cs => cs[raw.toList.length]?) hlists
  simp only [List.getElem?_append_right (Nat.le_refl _), Nat.sub_self, List.getElem?_cons_zero] at hat
  rw [List.getElem?_append_left (by omega)] at hat
  exact newline_not_mem_hex _ (List.mem_of_getElem? hat.symm)

/-! ### What is signed -/

namespace Gateio

theorem signedPrehash_ne (P : Platform) (clock : Clock) (method path query body timestamp : String)
    (hraw : (P.sha512 body).length = 64) :
    signedPrehash P clock method path query body ≠
      documentedPrehash P method path query body timestamp := by
  have hsome : P.sha512 body ≠ "" := by
    intro hempty
    rw [hempty] at hraw
    cases hraw
  intro hsame
  refine raw_ne_hex hsome (Nat.repr (clock 1 / 1000)) timestamp ?_
  apply String.toList_inj.mp
  have hlists := congrArg String.toList hsame
  simpa [signedPrehash, documentedPrehash] using hlists

theorem sign_eq {P : Platform} {a : Adapter} {clock : Clock} {method path query body sign : String}
    (h : ("SIGN", sign) ∈ authHeaders P a clock method path query body) :
    sign = P.hmacSha512Hex a.secretKey (signedPrehash P clock method path query body) := by
  simpa [authHeaders, signedPrehash] using h

theorem hmacs_differ : toHex "b" ≠ toHex "a" := by decide

/-- For no request and no readings of the clock is the documented text signed. -/
theorem sign_never_documented (P : Platform) (a : Adapter) (clock : Clock)
    (method path query body : String) (hraw : (P.sha512 body).length = 64) :
    (∀ hmac, ("SIGN", toHex (hmac a.secretKey (signedPrehash P clock method path query body))) ∈
      authHeaders (P.withHmac512 hmac) a clock method path query body) ∧
      (∀ timestamp, signedPrehash P clock method path query body ≠
        documentedPrehash P method path query body timestamp) ∧
      ¬ ∀ hmac, Documented (P.withHmac512 hmac) a method path query body
        (authHeaders (P.withHmac512 hmac) a clock method path query body) := by
  have hother : ∀ timestamp, signedPrehash P clock method path query body ≠
      documentedPrehash P method path query body timestamp :=
    fun timestamp => signedPrehash_ne P clock method path query body timestamp hraw
  refine ⟨fun hmac => List.mem_cons_of_mem _ (List.mem_cons_self ..), hother, ?_⟩
  intro h
  -- a digest that is of its own only for the text that is signed
  let hmac := fun _ text : String =>
    if text = signedPrehash P clock method path query body then "a" else "b"
  obtain ⟨timestamp, -, hsign⟩ := h hmac
  have hsame := sign_eq hsign
  have hsigned : hmac a.secretKey (signedPrehash P clock method path query body) = "a" := if_pos rfl
  have hdocumented : hmac a.secretKey (documentedPrehash P method path query body timestamp) = "b" :=
    if_neg (hother timestamp).symm
  refine hmacs_differ ?_
  rw [← hsigned, ← hdocumented]
  exact hsame

/-- The digest of the empty text. -/
def emptyDigest : String := rawBytes [
  207, 131, 225, 53, 126, 239, 184, 189, 241, 84, 40, 80, 214, 109, 128, 7, 214, 32, 228, 5,
  11, 87, 21, 220, 131, 244, 169, 33, 211, 108, 233, 206, 71, 208, 209, 60, 93, 133, 242, 176,
  255, 131, 24, 210, 135, 126, 236, 47, 99, 185, 49, 189, 71, 65, 122, 129, 165, 56, 50, 122,
  249, 39, 218, 62]

/-- The digest of the text that is signed for the accounts at time 0, under the key `secret`. -/
def signedDigest : String := rawBytes [
  166, 251, 227, 151, 98, 211, 148, 214, 97, 250, 214, 51, 189, 39, 120, 227, 212, 250, 81, 168,
  45, 69, 172, 49, 208, 193, 90, 92, 171, 116, 109, 5, 40, 201, 118, 84, 51, 208, 176, 225, 33,
  43, 173, 35, 184, 134, 55, 83, 142, 167, 121, 137, 194, 169, 96, 92, 219, 86, 236, 0, 124, 61,
  43, 126]

/-- The digest of the text that is documented for the same request. -/
def documentedDigest : String := rawBytes [
  92, 226, 83, 185, 250, 134, 72, 124, 36, 113, 181, 60, 30, 160, 31, 141, 53, 183, 48, 218, 224,
  52, 155, 43, 115, 30, 243, 212, 207, 146, 93, 163, 91, 46, 55, 221, 34, 251, 74, 122, 48, 131,
  172, 164, 253, 127, 26, 222, 123, 129, 153, 73, 180, 120, 124, 152, 197, 203, 80, 35, 18, 91,
  197, 134]

def accountsPrehash : String :=
  "GET" ++ "\n" ++ "/api/v4/spot/accounts" ++ "\n" ++ "" ++ "\n" ++ emptyDigest ++ "\n" ++ "0"

def digestPlatform : Platform :=
  { plainPlatform with
    sha512 := fun _ => emptyDigest
    hmacSha512 := fun _ text => if text = accountsPrehash then signedDigest else documentedDigest }

theorem digestPlatform_hmac (key text : String) : digestPlatform.hmacSha512Hex key text =
    toHex (if text = accountsPrehash then signedDigest else documentedDigest) := rfl

theorem digestPlatform_length (data : String) : (digestPlatform.sha512 data).length = 64 := by
  change (rawBytes _).length = 64
  rw [rawBytes, String.length_ofList]
  rfl

theorem sign_never_documented_accounts :
    (∀ hmac : String → String → String,
      ("SIGN", toHex (hmac "secret"
          (signedPrehash digestPlatform (fun _ => 0) "GET" "/api/v4/spot/accounts" "" ""))) ∈
        authHeaders (digestPlatform.withHmac512 hmac) plainAdapter (fun _ => 0) "GET"
          "/api/v4/spot/accounts" "" "") ∧
      (∀ timestamp, signedPrehash digestPlatform (fun _ => 0) "GET" "/api/v4/spot/accounts" "" "" ≠
        documentedPrehash digestPlatform "GET" "/api/v4/spot/accounts" "" "" timestamp) ∧
      ¬ ∀ hmac, Documented (digestPlatform.withHmac512 hmac) plainAdapter "GET" "/api/v4/spot/accounts" "" ""
        (authHeaders (digestPlatform.withHmac512 hmac) plainAdapter (fun _ => 0) "GET"
          "/api/v4/spot/accounts" "" "") :=
  sign_never_documented digestPlatform plainAdapter (fun _ => 0) "GET" "/api/v4/spot/accounts" "" ""
    (digestPlatform_length "")

/-- A frozen clock does not help. -/
theorem sign_of_raw_digest : ¬ ∀ (P : Platform) (a : Adapter) (clock : Clock)
    (method path query body : String), (∀ data, (P.sha512 data).length = 64) → Monotone clock →
      Documented P a method path query body (authHeaders P a clock method path query body) := by
  intro h
  obtain ⟨timestamp, -, hsign⟩ := h digestPlatform plainAdapter (fun _ => 0) "GET"
    "/api/v4/spot/accounts" "" "" digestPlatform_length monotone_const
  have hother := signedPrehash_ne digestPlatform (fun _ => 0) "GET" "/api/v4/spot/accounts" "" ""
    timestamp (digestPlatform_length "")
  have hsigned : signedPrehash digestPlatform (fun _ => 0) "GET" "/api/v4/spot/accounts" "" "" =
      accountsPrehash := rfl
  rw [hsigned] at hother
  have hsame := sign_eq hsign
  rw [hsigned] at hsame
  have hdocumented : digestPlatform.hmacSha512Hex plainAdapter.secretKey (documentedPrehash
      digestPlatform "GET" "/api/v4/spot/accounts" "" "" timestamp) = toHex documentedDigest := by
    rw [digestPlatform_hmac, if_neg hother.symm]
  have hmade : digestPlatform.hmacSha512Hex plainAdapter.secretKey accountsPrehash =
      toHex signedDigest := by
    rw [digestPlatform_hmac, if_pos rfl]
  exact absurd ((hdocumented.symm.trans hsame).trans hmade) (by decide +kernel)

end Gateio

end CryptoArbBot
