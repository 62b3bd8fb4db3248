import BusBookings.App.Http
import Mathlib

/-!
# Tokens

A token is accepted until its second is over, for the user whose id its `sub` is the text of
(`getCurrentUserId_encode`). `getCurrentUserId_iff`: the lifetimes and subjects for which these are
all the outcomes.
-/

namespace BusBookings

/-! ## Decimal texts -/

theorem decimal_of_isDigit {c : Char} (h : c.isDigit = true) : decimal c = some (c.toNat - '0'.toNat) := by
  have hc : 48 ≤ c.toNat ∧ c.toNat ≤ 57 := by
    simpa [Char.isDigit, UInt32.le_iff_toNat_le] using h
  have hfind : digitZeros.find? (fun z => z ≤ c.toNat && c.toNat < z + 10) = some 0x30 := by
    unfold digitZeros
    rw [List.find?_cons_of_pos]
    simp only [Bool.and_eq_true, decide_eq_true_eq]
    omega
  unfold decimal
  rw [hfind]
  rfl

theorem readDigits_of_isDigit {cs : List Char} (hne : cs ≠ []) (h : ∀ c ∈ cs, c.isDigit = true) :
    readDigits cs = some (cs.map fun c => c.toNat - '0'.toNat) := by
  induction cs with
  | nil => exact absurd rfl hne
  | cons c cs ih =>
    have hc := decimal_of_isDigit (h c (by simp))
    cases cs with
    | nil => simp [readDigits, hc]
    | cons c' cs =>
      have hc' : c' ≠ '_' := by
        rintro rfl
        exact absurd (h '_' (by simp)) (by decide)
      rw [readDigits]
      · rw [hc, ih (by simp) fun x hx => h x (List.mem_cons_of_mem _ hx)]
        rfl
      · simp
      · rintro cs' he
        cases he
        exact hc' rfl

theorem intSpace_of_isDigit {c : Char} (h : c.isDigit = true) : intSpace c = false := by
  have hc : 48 ≤ c.toNat ∧ c.toNat ≤ 57 := by
    simpa [Char.isDigit, UInt32.le_iff_toNat_le] using h
  unfold intSpace
  simp only [List.mem_cons, List.not_mem_nil, or_false, decide_eq_false_iff_not]
  omega

theorem readNat_toDigits (n : Nat) :
    readNat (Nat.toDigits 10 n) = if (Nat.toDigits 10 n).length ≤ 4300 then some n else none := by
  have hdigit : ∀ c ∈ Nat.toDigits 10 n, c.isDigit = true :=
    fun c hc => Nat.isDigit_of_mem_toDigits (by omega) (by omega) hc
  unfold readNat
  rw [readDigits_of_isDigit Nat.toDigits_ne_nil hdigit]
  simp only [Option.bind_eq_bind, Option.bind_some, List.length_map, List.foldl_map]
  rw [show List.foldl (fun x y : _ => 10 * x + (y.toNat - '0'.toNat)) 0 (Nat.toDigits 10 n) = n from
    Nat.ofDigitChars_ten_toDigits]

/-- Nothing is stripped of a text without white space. -/
theorem strip_eq {cs : List Char} (h : ∀ c ∈ cs, intSpace c = false) :
    (cs.dropWhile intSpace).rdropWhile intSpace = cs := by
  have hspace : ∀ c ∈ cs, ¬ intSpace c = true := fun c hc => by
    rw [h c hc]
    exact Bool.false_ne_true
  rw [List.dropWhile_eq_self_iff.2 fun hl => hspace _ (List.get_mem _ _)]
  exact List.rdropWhile_eq_self_iff.2 fun hl => hspace _ (List.getLast_mem hl)

theorem intSpace_of_mem_toDigits {n : Nat} {c : Char} (hc : c ∈ Nat.toDigits 10 n) : intSpace c = false :=
  intSpace_of_isDigit (Nat.isDigit_of_mem_toDigits (by omega) (by omega) hc)

/-- `int` reads the text of a number of at most 4300 digits, and no longer one. -/
theorem intOfText_toString (n : Nat) :
    intOfText (toString (n : Int)) =
      if (toString (n : Int)).length ≤ 4300 then some (n : Int) else none := by
  have hlist : (toString (n : Int)).toList = Nat.toDigits 10 n := Nat.toList_repr
  have hlen : (toString (n : Int)).length = (Nat.toDigits 10 n).length := by
    rw [← hlist]
    rfl
  have hdigit : ∀ c ∈ Nat.toDigits 10 n, c.isDigit = true :=
    fun c hc => Nat.isDigit_of_mem_toDigits (by omega) (by omega) hc
  unfold intOfText
  rw [hlist, strip_eq fun c hc => intSpace_of_mem_toDigits hc, hlen]
  split
  · rename_i cs he
    exact absurd (hdigit '+' (by rw [he]; simp)) (by decide)
  · rename_i cs he
    exact absurd (hdigit '-' (by rw [he]; simp)) (by decide)
  · rw [readNat_toDigits]
    split <;> rfl

/-- `int` reads the text of a number as that number, if at all. -/
theorem eq_of_intOfText {n m : Int} (h : intOfText (toString n) = some m) : m = n := by
  cases n with
  | ofNat n =>
    have hread := intOfText_toString n
    rw [show (toString (Int.ofNat n)) = toString (n : Int) from rfl, hread] at h
    split at h
    · exact (Option.some.inj h).symm
    · cases h
  | negSucc n =>
    have hlist : (toString (Int.negSucc n)).toList = '-' :: Nat.toDigits 10 (n + 1) := by
      show ("-" ++ toString (n + 1)).toList = _
      rw [String.toList_append]
      exact congrArg _ Nat.toList_repr
    have hspace : ∀ c ∈ '-' :: Nat.toDigits 10 (n + 1), intSpace c = false := by
      intro c hc
      rcases List.mem_cons.1 hc with rfl | hc
      · decide
      · exact intSpace_of_mem_toDigits hc
    unfold intOfText at h
    rw [hlist, strip_eq hspace] at h
    simp only [readNat_toDigits] at h
    split at h
    · cases h
      rfl
    · cases h

/-- `text` is the decimal text of the user id `n`. -/
def IsIdText (text : String) (n : Int) : Prop := 0 < n ∧ text = toString n

theorem IsIdText.intOfText {text : String} {n : Int} (h : IsIdText text n) :
    intOfText text = if text.length ≤ 4300 then some n else none := by
  obtain ⟨hn, rfl⟩ := h
  obtain ⟨m, rfl⟩ := Int.eq_ofNat_of_zero_le (Int.le_of_lt hn)
  exact intOfText_toString m

/-- A text is the text of at most one id. -/
theorem IsIdText.unique {text : String} {m n : Int} (hm : IsIdText text m) (hn : IsIdText text n) : m = n :=
  Int.repr_injective (hm.2.symm.trans hn.2)

/-! ## Issuing and checking -/

section

variable {Token : Type} {jwt : Jwt Token} {expireMinutes d t₀ t : Int} {claims : Claims} {token : Token}

/-- The lifetime of a token that is made for the time `d`. -/
def lifetime (expireMinutes d : Int) : Int := if d = 0 then expireMinutes * 60000000 else d

/-- The check at `t` of a token with the claims `claims` that expires at `exp`. -/
theorem getCurrentUserId_encode (exp : Int) : getCurrentUserId jwt t (jwt.encode claims exp) =
    if second exp < second t then .error credentialsException
    else match claims.lookup "sub" with
      | some (.str text) => pyInt (.str text)
      | _ => .error credentialsException := by
  unfold getCurrentUserId
  rw [jwt.decode_encode]
  by_cases hexp : second exp < second t
  · rw [if_pos hexp, if_pos hexp]
  · rw [if_neg hexp, if_neg hexp]
    cases hsub : claims.lookup "sub" with
    | none => simp [AList.lookup_insert_ne, hsub]
    | some sub => cases sub <;> simp [AList.lookup_insert_ne, hsub]

/-- `int` raises a `ValueError`, never the credentials exception. -/
theorem pyInt_str (text : String) :
    (∃ n, intOfText text = some n ∧ pyInt (.str text) = .ok n) ∨ pyInt (.str text) = .error .value := by
  simp only [pyInt]
  cases h : intOfText text with
  | none => exact .inr rfl
  | some n => exact .inl ⟨n, rfl, rfl⟩

/-- The token of `createAccessToken`. -/
theorem createAccessToken_some (h : createAccessToken jwt expireMinutes t₀ claims (some d) = some token) :
    token = jwt.encode claims (t₀ + lifetime expireMinutes d) := by
  have hexpire : (Option.filter (· ≠ 0) (some d)).getD (expireMinutes * 60000000) =
      lifetime expireMinutes d := by
    unfold lifetime
    by_cases hd : d = 0 <;> simp [Option.filter, hd]
  simp only [createAccessToken, hexpire] at h
  split at h
  · exact (Option.some.inj h).symm
  · cases h

/-- The outcomes of a check at `t` that one expects of a token made at `t₀` for the time `d`. -/
def TwoOutcomes (claims : Claims) (d t₀ t : Int) (outcome : Except Exc Int) : Prop :=
  (∀ text n, claims.lookup "sub" = some (.str text) → IsIdText text n → second t ≤ second (t₀ + d) →
      outcome = .ok n) ∧
    ((¬ ∃ text n, claims.lookup "sub" = some (.str text) ∧ IsIdText text n ∧ second t ≤ second (t₀ + d)) →
      outcome = .error credentialsException)

/-- The outcomes that one expects of a token with the `sub` `text`; `live`: it is checked in time. -/
def TextOutcomes (text : String) (live : Prop) (outcome : Except Exc Int) : Prop :=
  (∀ n, IsIdText text n → live → outcome = .ok n) ∧
    (¬ ((∃ n, IsIdText text n) ∧ live) → outcome = .error credentialsException)

theorem twoOutcomes_text {text : String} (hsub : claims.lookup "sub" = some (.str text))
    {outcome : Except Exc Int} :
    TwoOutcomes claims d t₀ t outcome ↔
      TextOutcomes text (second t ≤ second (t₀ + d)) outcome := by
  constructor
  · intro ⟨haccept, hreject⟩
    refine ⟨fun n hn hlive => haccept text n hsub hn hlive, fun hnot => hreject ?_⟩
    intro ⟨text', n, hsub', hn, hlive⟩
    rw [hsub] at hsub'
    cases hsub'
    exact hnot ⟨⟨n, hn⟩, hlive⟩
  · intro ⟨haccept, hreject⟩
    refine ⟨fun text' n hsub' hn hlive => ?_, fun hnot => hreject ?_⟩
    · rw [hsub] at hsub'
      cases hsub'
      exact haccept n hn hlive
    · intro ⟨⟨n, hn⟩, hlive⟩
      exact hnot ⟨text, n, hsub, hn, hlive⟩

theorem twoOutcomes_no_text (htext : ¬ ∃ text, claims.lookup "sub" = some (.str text)) :
    TwoOutcomes claims d t₀ t (.error credentialsException) :=
  ⟨fun text _ hsub => absurd ⟨text, hsub⟩ htext, fun _ => rfl⟩

section

variable {text : String} {live live' : Prop}

/-! The three ways in which the code checks the `sub`, for which the token has expired exactly if
`live'` fails. -/

theorem textOutcomes_expired (hexp : ¬ live') :
    TextOutcomes text live (.error credentialsException) ↔
      (live' → (∃ n, IsIdText text n) ∧ text.length ≤ 4300) ∧
        ((∃ n, IsIdText text n) → (live' ↔ live)) := by
  constructor
  · intro ⟨haccept, _⟩
    refine ⟨fun hlive => absurd hlive hexp, fun ⟨n, hn⟩ => iff_of_false hexp fun hlive => ?_⟩
    cases haccept n hn hlive
  · intro ⟨_, hsame⟩
    exact ⟨fun n hn hlive => absurd ((hsame ⟨n, hn⟩).2 hlive) hexp, fun _ => rfl⟩

theorem textOutcomes_id {n : Int} (hlive' : live') (hn : IsIdText text n) :
    TextOutcomes text live (pyInt (.str text)) ↔
      (live' → (∃ n, IsIdText text n) ∧ text.length ≤ 4300) ∧
        ((∃ n, IsIdText text n) → (live' ↔ live)) := by
  have hint : pyInt (.str text) = if text.length ≤ 4300 then .ok n else .error .value := by
    by_cases hshort : text.length ≤ 4300 <;> simp [pyInt, hn.intOfText, hshort]
  rw [hint]
  constructor
  · intro ⟨haccept, hreject⟩
    have hlive : live := by
      by_contra hlive
      have := hreject fun h => hlive h.2
      split at this <;> cases this
    refine ⟨fun _ => ⟨⟨n, hn⟩, ?_⟩, fun _ => iff_of_true hlive' hlive⟩
    by_contra hlong
    have hok := haccept n hn hlive
    rw [if_neg hlong] at hok
    cases hok
  · intro ⟨hshort, hsame⟩
    rw [if_pos (hshort hlive').2]
    refine ⟨fun m hm _ => ?_, fun hnot => absurd ⟨⟨n, hn⟩, (hsame ⟨n, hn⟩).1 hlive'⟩ hnot⟩
    rw [hm.unique hn]

theorem textOutcomes_no_id (hlive' : live') (hid : ¬ ∃ n, IsIdText text n) :
    TextOutcomes text live (pyInt (.str text)) ↔
      (live' → (∃ n, IsIdText text n) ∧ text.length ≤ 4300) ∧
        ((∃ n, IsIdText text n) → (live' ↔ live)) := by
  refine iff_of_false (fun ⟨_, hreject⟩ => ?_) fun h => hid (h.1 hlive').1
  have hcredentials := hreject fun h => hid h.1
  rcases pyInt_str text with ⟨n, -, hn⟩ | hvalue
  · rw [hn] at hcredentials
    cases hcredentials
  · rw [hvalue] at hcredentials
    cases hcredentials

end

/-- The check has the expected outcome exactly if the `sub` of a token that has not expired is,
unless it is missing or no text, the text of a user id (of at most 4300 digits), and the lifetime of
the code decides as the given one. -/
theorem getCurrentUserId_iff (h : createAccessToken jwt expireMinutes t₀ claims (some d) = some token) :
    TwoOutcomes claims d t₀ t (getCurrentUserId jwt t token) ↔
      ∀ text, claims.lookup "sub" = some (.str text) →
        (second t ≤ second (t₀ + lifetime expireMinutes d) → (∃ n, IsIdText text n) ∧ text.length ≤ 4300) ∧
        ((∃ n, IsIdText text n) →
          (second t ≤ second (t₀ + lifetime expireMinutes d) ↔ second t ≤ second (t₀ + d))) := by
  rw [createAccessToken_some h, getCurrentUserId_encode]
  by_cases htext : ∃ text, claims.lookup "sub" = some (.str text)
  · obtain ⟨text, hsub⟩ := htext
    rw [twoOutcomes_text hsub]
    simp only [hsub, Option.some.injEq, Json.str.injEq, forall_eq']
    by_cases hexp : second (t₀ + lifetime expireMinutes d) < second t
    · rw [if_pos hexp]
      exact textOutcomes_expired (Int.not_le.2 hexp)
    · rw [if_neg hexp]
      by_cases hid : ∃ n, IsIdText text n
      · obtain ⟨n, hn⟩ := hid
        exact textOutcomes_id (Int.not_lt.1 hexp) hn
      · exact textOutcomes_no_id (Int.not_lt.1 hexp) hid
  · have hreject : (match claims.lookup "sub" with
        | some (.str text) => pyInt (.str text)
        | _ => .error credentialsException) = .error credentialsException := by
      split
      · rename_i text hsub
        exact absurd ⟨text, hsub⟩ htext
      · rfl
    rw [hreject, ite_self]
    exact iff_of_true (twoOutcomes_no_text htext) fun text hsub => absurd ⟨text, hsub⟩ htext

/-- The library on the claims and their expiry. -/
def plainJwt : Jwt (Claims × Int) where
  encode := Prod.mk
  decode now token :=
    if second token.2 < second now then none
    else match token.1.lookup "sub" with
      | none | some (.str _) => some (token.1.insert "exp" (.num (second token.2)))
      | some _ => none
  decode_encode _ _ _ := rfl

theorem lookup_subject {sub text : String} (h : (subject sub).lookup "sub" = some (.str text)) :
    sub = text := by
  rw [subject, AList.lookup_insert] at h
  cases h
  rfl

/-- A token for the user 7 is checked in its second. -/
theorem getCurrentUserId_iff_seven : ∃ token,
    createAccessToken plainJwt 30 0 (subject "7") (some 60000000) = some token ∧
    TwoOutcomes (subject "7") 60000000 0 60500000 (getCurrentUserId plainJwt 60500000 token) := by
  refine ⟨_, rfl, (getCurrentUserId_iff rfl).2 fun text hsub => ?_⟩
  obtain rfl := lookup_subject hsub
  exact ⟨fun _ => ⟨⟨7, by decide, rfl⟩, by decide⟩, fun _ => Iff.rfl⟩

/-- A token for the time 0 is accepted a minute later, and the subject `abc` raises a `ValueError`. -/
theorem getCurrentUserId_fails :
    (∃ token, createAccessToken plainJwt 30 0 (subject "7") (some 0) = some token ∧
      ¬ TwoOutcomes (subject "7") 0 0 60000000 (getCurrentUserId plainJwt 60000000 token)) ∧
    ∃ token, createAccessToken plainJwt 30 0 (subject "abc") (some 60000000) = some token ∧
      ¬ TwoOutcomes (subject "abc") 60000000 0 0 (getCurrentUserId plainJwt 0 token) := by
  refine ⟨⟨_, rfl, fun ⟨_, hreject⟩ => ?_⟩, ⟨_, rfl, fun ⟨_, hreject⟩ => ?_⟩⟩
  · have hlate : ¬ second 60000000 ≤ second (0 + 0) := by decide
    have := hreject fun ⟨_, _, _, _, hlive⟩ => hlate hlive
    cases this
  · have hnot : ¬ ∃ text n, (subject "abc").lookup "sub" = some (.str text) ∧ IsIdText text n ∧
        second 0 ≤ second (0 + 60000000) := by
      intro ⟨text, n, hsub, hn, _⟩
      obtain rfl := lookup_subject hsub
      have hint := hn.intOfText
      rw [if_pos (by decide)] at hint
      cases hint
    have := hreject hnot
    cases this

end

end BusBookings
