import ScriptWarden.Lua.Library.Math
import ScriptWarden.Proofs.Lua.Library.Base
set_option autoImplicit false

/-!
# Lua: functions on numbers keep the guard

They give numbers, and those that choose among their arguments give one of them.
-/

namespace ScriptWarden.Lua.Library

open ScriptWarden.Lua.Native

variable {σ : Type} {ward : Ward σ} {args : List Value}

theorem keeps_ofFloat (f : Float → Float) : (ofFloat args f : Native σ (List Value)).Keeps ward :=
  (keeps_floatArg 1).bind fun _ _ => keeps_pure (by simp)

theorem keeps_absolute : (absolute args : Native σ (List Value)).Keeps ward := by
  unfold absolute
  split
  · exact keeps_pure (by simp)
  · exact (keeps_floatArg 1).bind fun _ _ => keeps_pure (by simp)

theorem keeps_truncatedRemainder : (truncatedRemainder args : Native σ (List Value)).Keeps ward := by
  unfold truncatedRemainder
  split
  · exact (keeps_require _ _ _).bind fun _ _ => keeps_pure (by simp)
  · exact (keeps_floatArg 1).bind fun _ _ => (keeps_floatArg 2).bind fun _ _ => keeps_pure (by simp)

theorem keeps_logarithm : (logarithm args : Native σ (List Value)).Keeps ward := by
  refine (keeps_floatArg 1).bind fun x _ => keeps_ite (keeps_pure (by simp)) ?_
  exact (keeps_floatArg 2).bind fun _ _ => keeps_pure (by simp)

theorem keeps_best (hargs : IsPublic args) {better : Value → Value → Native σ Bool}
    (hbetter : ∀ a b, IsPublic a → IsPublic b → (better a b).Keeps ward) :
    (best args better : Native σ (List Value)).Keeps ward := by
  refine (keeps_numberArg 1).bind fun _ _ => Keeps.bind ?_ fun v hv => keeps_pure (by simpa using hv)
  refine keeps_foldlM (fun found i hfound => ?_) _ (public_arg hargs 1)
  have hnext := public_arg hargs (i + 2)
  refine (keeps_numberArg _).bind fun _ _ => (hbetter _ _ hnext hfound).bind fun isBetter _ => ?_
  refine keeps_pure ?_
  split
  · exact hnext
  · exact hfound

theorem keeps_parts : (parts args : Native σ (List Value)).Keeps ward := by
  unfold parts
  split
  · exact keeps_pure (by simp)
  · exact (keeps_floatArg 1).bind fun _ _ => keeps_pure (by simp)

/-! ## Random numbers -/

theorem keeps_randomWord : (randomWord : Native σ UInt64).Keeps ward :=
  keeps_create fun shared _ hh =>
    ⟨trivial, shared, .of_cells rfl rfl, hh.of_eq rfl rfl rfl rfl rfl⟩

theorem keeps_project (fuel : Nat) (word n mask : UInt64) :
    (project fuel word n mask : Native σ UInt64).Keeps ward := by
  induction fuel generalizing word with
  | zero => exact keeps_pure trivial
  | succ fuel ih => exact keeps_ite (keeps_pure trivial) (keeps_randomWord.bind fun _ _ => ih _)

theorem keeps_randomBetween (word : UInt64) (low high : Int64) :
    (randomBetween word low high : Native σ (List Value)).Keeps ward :=
  (keeps_require _ _ _).bind fun _ _ => (keeps_project _ _ _ _).bind fun _ _ => keeps_pure (by simp)

theorem keeps_random : (random args : Native σ (List Value)).Keeps ward := by
  refine keeps_randomWord.bind fun word _ => ?_
  split
  · exact keeps_pure (by simp)
  · exact (keeps_intArg 1).bind fun _ _ => keeps_ite (keeps_pure (by simp)) (keeps_randomBetween _ _ _)
  · exact (keeps_intArg 1).bind fun _ _ => (keeps_intArg 2).bind fun _ _ => keeps_randomBetween _ _ _
  · exact keeps_failText _

theorem keeps_seedRandom : (seedRandom args : Native σ (List Value)).Keeps ward := by
  have hseed : ∀ first : UInt64, (do
      let second ← optInt args 2 0
      modifyHeap fun h => { h with random := RandomState.ofSeed first second.toUInt64 }
      return [.int first.toInt64, .int second] : Native σ (List Value)).Keeps ward := by
    intro first
    refine (keeps_optInt 2 0).bind fun second _ => Keeps.bind ?_ fun _ _ => keeps_pure (by simp)
    exact keeps_modifyHeap (fun _ _ hh => hh.of_eq rfl rfl rfl rfl rfl) (fun _ => rfl) fun _ => rfl
  unfold seedRandom
  simp only
  split
  · exact hseed _
  · refine (keeps_numberArg 1).bind fun n _ => ?_
    cases n with
    | int n => exact hseed _
    | float x => exact hseed _

theorem isPublic_asInteger (x : Float) : IsPublic (asInteger x) := by
  unfold asInteger
  split
  · exact isPublic_int _
  · exact isPublic_float _

/-- A number rounded to an integer. -/
theorem keeps_rounded (round : Float → Float) : (do
    match ← numberArg args 1 with
    | .int n => return [.int n]
    | .float x => return [asInteger (round x)] : Native σ (List Value)).Keeps ward := by
  refine (keeps_numberArg 1).bind fun n _ => ?_
  cases n with
  | int n => exact keeps_pure (by simp)
  | float x => exact keeps_pure (by simp [isPublic_asInteger])

theorem keeps_math (f : Builtin) (hargs : IsPublic args) :
    (math f args : Native σ (List Value)).Keeps ward := by
  have harc : ∀ y x : Float, (pure [.float (Float.atan2 y x)] : Native σ (List Value)).Keeps ward :=
    fun _ _ => keeps_pure (by simp)
  unfold math
  split
  · exact keeps_absolute
  · exact keeps_ofFloat _
  · exact keeps_ofFloat _
  · refine (keeps_floatArg 1).bind fun y _ => keeps_ite (harc y 1) ?_
    exact (keeps_floatArg 2).bind fun x _ => harc y x
  · exact keeps_rounded _
  · exact keeps_ofFloat _
  · exact keeps_ofFloat _
  · exact keeps_ofFloat _
  · exact keeps_rounded _
  · exact keeps_truncatedRemainder
  · exact keeps_logarithm
  · exact keeps_best hargs fun _ _ ha hb => Access.keeps_ordered _ hb ha
  · exact keeps_best hargs fun _ _ ha hb => Access.keeps_ordered _ ha hb
  · exact keeps_parts
  · exact keeps_ofFloat _
  · exact keeps_random
  · exact keeps_seedRandom
  · exact keeps_ofFloat _
  · exact keeps_ofFloat _
  · exact keeps_ofFloat _
  · refine (keeps_anyArg hargs 1).bind fun v _ => keeps_pure ?_
    cases v.toInteger? with
    | none => simp
    | some n => simp
  · refine (keeps_anyArg hargs 1).bind fun v _ => ?_
    split
    · exact keeps_pure (by simp)
    · exact keeps_pure (by simp)
    · exact keeps_pure (by simp)
  · exact (keeps_intArg 1).bind fun _ _ => (keeps_intArg 2).bind fun _ _ => keeps_pure (by simp)
  · exact keeps_pure isPublic_emptyList

end ScriptWarden.Lua.Library
