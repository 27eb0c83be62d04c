import Mathlib.Data.List.Induction
import ScriptWarden.Backend
set_option autoImplicit false

/-!
# The credential of a backend

The source of fresh credentials is asked for one when the backend refuses the stored one, and only then.  What it
answers is written down (`recorded`), which changes nothing else (`exchange_recorded`).  The answers of one exchange say
which attempts were made and what came of them (`exchange_faithful`), and over any number of exchanges the stored
credential is the one that the source gave out last (`token_exchanges`).
-/

namespace ScriptWarden.Backend

variable {σ : Type}

/-- What the attempts of a request come to, by their number and the credential that they are made with. -/
abbrev Attempt := Nat → String → Except Failure Response

/-- A fresh credential, or why there is none. -/
abbrev Answer := Except Failure String

/-! ## Records -/

/-- A source that writes down what it answers, in order. -/
def recorded (auth : Authenticator σ) : Authenticator (List Answer × σ) := fun (answers, source) =>
  let (answer, source) := auth source
  (answer, (answers ++ [answer], source))

/-- The credentials that were given out. -/
def credentials (answers : List Answer) : List String := answers.filterMap Except.toOption

/-- The credential that was given out last, or the first one. -/
def latest (token : String) (answers : List Answer) : String := (credentials answers).getLastD token

theorem latest_append (token : String) (answers answers' : List Answer) :
    latest token (answers ++ answers') = latest (latest token answers) answers' := by
  unfold latest credentials
  rw [List.filterMap_append]
  generalize List.filterMap Except.toOption answers' = given
  induction given using List.reverseRecOn with
  | nil => rw [List.append_nil, List.getLastD_nil]
  | append_singleton given token' => simp only [← List.append_assoc, List.getLastD_concat]

/-- The session without the record. -/
def Session.plain (s : Session (List Answer × σ)) : Session σ := ⟨s.token, s.source.2⟩

/-- A record changes nothing else. -/
theorem exchange_recorded (auth : Authenticator σ) (attempt : Attempt) (s : Session (List Answer × σ)) :
    exchange auth attempt s.plain =
      ((exchange (recorded auth) attempt s).1, (exchange (recorded auth) attempt s).2.plain) := by
  obtain ⟨token, answers, source⟩ := s
  unfold exchange recorded Session.plain
  simp only
  cases attempt 0 token with
  | error e => rfl
  | ok first =>
    simp only
    split
    · rfl
    · cases auth source with
      | mk answer source => cases answer <;> rfl

/-! ## One exchange -/

/-- What an exchange comes to that begins with a credential, if the source gives some answers meanwhile. -/
structure Faithful (attempt : Attempt) (token : String) (answers : List Answer) (x : Exchange) : Prop where
  /-- The source is asked once at most, -/
  asked_once : answers.length ≤ 1
  /-- and exactly if the first attempt is refused. -/
  asked_iff : answers ≠ [] ↔ ∃ first, attempt 0 token = .ok first ∧ first.status = unauthorized
  /-- There is an attempt with the stored credential, and one with a fresh one. -/
  tokens_eq : x.tokens = token :: credentials answers
  attempts : x.tokens.length = 1 ∨ x.tokens.length = 2
  /-- Where the source has no credential, its error is what comes out, -/
  failed : ∀ e, answers = [.error e] → x.result = .error e
  /-- and anything else is what the last attempt came to. -/
  attempted : (∀ e, answers ≠ [.error e]) → x.result = attempt (x.tokens.length - 1) (latest token answers)

theorem exchange_faithful (auth : Authenticator σ) (attempt : Attempt) (s : Session (List Answer × σ)) :
    ∃ answers, (exchange (recorded auth) attempt s).2.source.1 = s.source.1 ++ answers ∧
      (exchange (recorded auth) attempt s).2.token = latest s.token answers ∧
      Faithful attempt s.token answers (exchange (recorded auth) attempt s).1 := by
  obtain ⟨token, said, source⟩ := s
  unfold exchange recorded
  simp only
  cases hfirst : attempt 0 token with
  | error e =>
    exact ⟨[], (List.append_nil _).symm, rfl, by simp, by simp [hfirst], rfl, .inl rfl, nofun, fun _ => hfirst.symm⟩
  | ok first =>
    simp only
    split
    · next haccepted =>
      exact ⟨[], (List.append_nil _).symm, rfl, by simp, by simpa [hfirst] using haccepted, rfl, .inl rfl, nofun,
        fun _ => hfirst.symm⟩
    · next hrefused =>
      have hunauthorized : first.status = unauthorized := Decidable.not_not.1 hrefused
      cases auth source with
      | mk answer source =>
        cases answer with
        | error e =>
          refine ⟨[.error e], rfl, rfl, by simp, by simpa [hfirst] using hunauthorized, rfl, .inl rfl, ?_, ?_⟩
          · rintro _ ⟨⟩
            rfl
          · exact fun h => absurd rfl (h e)
        | ok fresh =>
          exact ⟨[.ok fresh], rfl, rfl, by simp, by simpa [hfirst] using hunauthorized, rfl, .inr rfl, nofun,
            fun _ => rfl⟩

/-- What attempts would have come to that were not made does not matter. -/
theorem exchange_congr (auth : Authenticator σ) {attempt attempt' : Attempt} (s : Session σ)
    (h : ∀ (k : Nat) token, (exchange auth attempt s).1.tokens[k]? = some token → attempt' k token = attempt k token) :
    exchange auth attempt' s = exchange auth attempt s := by
  have hstored : attempt' 0 s.token = attempt 0 s.token := by
    refine h 0 s.token ?_
    unfold exchange
    split
    · rfl
    · split
      · rfl
      · split <;> rfl
  unfold exchange at h ⊢
  rw [hstored]
  cases hfirst : attempt 0 s.token with
  | error e => rfl
  | ok first =>
    rw [hfirst] at h
    simp only at h ⊢
    split
    · rfl
    · next hrefused =>
      rw [if_neg hrefused] at h
      cases hauth : auth s.source with
      | mk answer source =>
        rw [hauth] at h
        cases answer with
        | error e => rfl
        | ok fresh =>
          have hfresh : attempt' 1 fresh = attempt 1 fresh := h 1 fresh rfl
          simp only [hfresh]

/-! ## Exchanges -/

/-- The session after some requests. -/
def exchanges (auth : Authenticator σ) (requests : List Attempt) (s : Session σ) : Session σ :=
  requests.foldl (fun s attempt => (exchange auth attempt s).2) s

theorem exchanges_recorded (auth : Authenticator σ) (requests : List Attempt) (s : Session (List Answer × σ)) :
    exchanges auth requests s.plain = (exchanges (recorded auth) requests s).plain := by
  induction requests generalizing s with
  | nil => rfl
  | cons attempt rest ih =>
    unfold exchanges at ih ⊢
    rw [List.foldl_cons, exchange_recorded]
    exact ih _

/-- The stored credential is the one that was given out last. -/
theorem token_exchanges (auth : Authenticator σ) (requests : List Attempt) (token : String)
    {s : Session (List Answer × σ)} (h : s.token = latest token s.source.1) :
    (exchanges (recorded auth) requests s).token = latest token (exchanges (recorded auth) requests s).source.1 := by
  induction requests generalizing s with
  | nil => exact h
  | cons attempt rest ih =>
    obtain ⟨answers, hsaid, htoken, -⟩ := exchange_faithful auth attempt s
    refine ih ?_
    rw [htoken, hsaid, latest_append, h]

/-- **A refused credential is renewed once.**  Whatever the source of fresh credentials answers and whatever requests
went before, a request makes one or two attempts and asks the source at most once, which it does exactly if its first
attempt is refused; the first attempt is made with the stored credential and the second with the fresh one; what comes
out is what the last attempt came to, or the error of the source.  Before and after it, the stored credential is the one
that the source gave out last, or the first one if it never gave one out. -/
theorem credential_renewed_once (auth : Authenticator σ) (token : String) (source : σ) (before : List Attempt)
    (attempt : Attempt) :
    let s := exchanges (recorded auth) before ⟨token, [], source⟩
    let x := (exchange (recorded auth) attempt s).1
    let s' := (exchange (recorded auth) attempt s).2
    s.token = latest token s.source.1 ∧ s'.token = latest token s'.source.1 ∧
    (∃ answers, s'.source.1 = s.source.1 ++ answers ∧ Faithful attempt s.token answers x) ∧
    (∀ attempt' : Attempt, (∀ (k : Nat) token, x.tokens[k]? = some token → attempt' k token = attempt k token) →
      exchange (recorded auth) attempt' s = (x, s')) ∧
    exchanges auth before ⟨token, source⟩ = s.plain ∧ exchange auth attempt s.plain = (x, s'.plain) := by
  intro s x s'
  have hbefore : s.token = latest token s.source.1 := token_exchanges auth before token rfl
  obtain ⟨answers, hsaid, htoken, hfaithful⟩ := exchange_faithful auth attempt s
  have hafter : s'.token = latest token s'.source.1 := by
    rw [htoken, hsaid, latest_append, ← hbefore]
  exact ⟨hbefore, hafter, ⟨answers, hsaid, hfaithful⟩, fun _ h => exchange_congr (recorded auth) s h,
    exchanges_recorded auth before ⟨token, [], source⟩, exchange_recorded auth attempt s⟩

end ScriptWarden.Backend
