import Summoners.MatchLog.EventWire

/-! # The wire codec is lossless

Both directions of every conversion between the rules and the wire, put together. Reading undoes
writing on every state whose breakage, if it has one, comes from one of the two rules that can break
a game; writing undoes reading on canonical ids.
-/

namespace Summoners
set_option autoImplicit false
open Checked

theorem wire_codec_lossless :
    (∀ s : GameState,
        (∀ b, s.status = .broken b → b.rule = "destruction" ∨ b.rule = "retreat") →
          (StateProjectionV1.fromState s).intoGameState s.cards = .ok s) ∧
      (∀ (p : StateProjectionV1) (c : CardSet) (s : GameState), CanonicalIds p.entityIds →
        p.intoGameState c = .ok s → StateProjectionV1.fromState s = p) ∧
      (∀ a : GameAction, (ActionV1.fromCore a).tryIntoCore = .ok a) ∧
      (∀ (w : ActionV1) (a : GameAction), CanonicalIds w.entityIds →
        w.tryIntoCore = .ok a → ActionV1.fromCore a = w) ∧
      (∀ e : GameEvent, (EventV1.fromCore e).tryIntoCore = .ok e) ∧
      (∀ (w : EventV1) (e : GameEvent), CanonicalIds w.entityIds →
        w.tryIntoCore = .ok e → EventV1.fromCore e = w) ∧
      (∀ e : ActionError, ErrorV1.ofCore.symm (ErrorV1.ofCore e) = e) ∧
      (∀ w : ErrorV1, ErrorV1.ofCore (ErrorV1.ofCore.symm w) = w) ∧
      ∀ {β δ : Type} (jsonBytes : StateProjectionV1 → β) (sha256 : β → δ) (s s' : GameState),
        s.cards = s'.cards → s ≠ s' →
          sha256 (jsonBytes (StateProjectionV1.fromState s)) =
            sha256 (jsonBytes (StateProjectionV1.fromState s')) →
          StateProjectionV1.fromState s ≠ StateProjectionV1.fromState s' ∧
            ((∃ p p', p ≠ p' ∧ jsonBytes p = jsonBytes p') ∨
              ∃ x x', x ≠ x' ∧ sha256 x = sha256 x') := by
  refine ⟨?_, ?_, ?_, ?_, ?_, ?_, ?_, ?_, ?_⟩
  · intro s hrule
    exact (StateProjectionV1.lossless s.cards).dec_enc ⟨hrule, rfl⟩
  · intro p c s hids hread
    exact (StateProjectionV1.lossless c).enc_dec hids hread
  · intro a
    exact ActionV1.lossless.dec_enc trivial
  · intro w a hids hread
    exact ActionV1.lossless.enc_dec hids hread
  · intro e
    exact EventV1.lossless.dec_enc trivial
  · intro w e hids hread
    exact EventV1.lossless.enc_dec hids hread
  · exact ErrorV1.ofCore.symm_apply_apply
  · exact ErrorV1.ofCore.apply_symm_apply
  · intro β δ jsonBytes sha256 s s' hcards hne hdigest
    have hprojection : StateProjectionV1.fromState s ≠ StateProjectionV1.fromState s' :=
      fun h => hne (StateProjectionV1.fromState_injective hcards h)
    refine ⟨hprojection, ?_⟩
    by_cases hbytes : jsonBytes (StateProjectionV1.fromState s) =
        jsonBytes (StateProjectionV1.fromState s')
    · exact .inl ⟨_, _, hprojection, hbytes⟩
    · exact .inr ⟨_, _, hbytes, hdigest⟩

/-- A state that broke in a destruction check, and an activation with an id in its canonical text. -/
theorem wire_codec_lossless_broken : ∃ (s : GameState) (w : ActionV1) (a : GameAction),
    s.status = .broken ⟨"destruction", ⟨Vector.replicate 16 1⟩, .life⟩ ∧
      (StateProjectionV1.fromState s).intoGameState s.cards = .ok s ∧
      w = .activateSkill .one .main ⟨"01234567-89ab-cdef-0123-456789abcdef"⟩ [.bench .third] none ∧
      w.tryIntoCore = .ok a ∧ ActionV1.fromCore a = w := by
  let seat : PlayerState := ⟨none, Bench.empty, [], [], [], [], ⟨0, 0, 0⟩, 0, []⟩
  let s : GameState :=
    { players := ⟨seat, seat⟩
      coin := none
      turn := ⟨.one, .main, none, false, false, ⟨false, false⟩⟩
      stack := []
      stackSegmentBases := []
      work := [.fireTrigger .two (.bench .first) .leavesBench ⟨Vector.replicate 16 2⟩]
      pending := none
      status := .broken ⟨"destruction", ⟨Vector.replicate 16 1⟩, .life⟩
      cards := ⟨[]⟩ }
  let w : ActionV1 :=
    .activateSkill .one .main ⟨"01234567-89ab-cdef-0123-456789abcdef"⟩ [.bench .third] none
  have hids : CanonicalIds w.entityIds := by decide +kernel
  have hread : w.tryIntoCore.toOption.isSome = true := by decide +kernel
  obtain ⟨hstate, -, -, haction, -⟩ := wire_codec_lossless
  cases ha : w.tryIntoCore with
  | error e =>
      rw [ha] at hread
      cases hread
  | ok a =>
      refine ⟨s, w, a, rfl, hstate s ?_, rfl, ha, haction w a hids ha⟩
      intro b hb
      cases hb
      exact .inl rfl

/-- A bare id is read, but it is written back with its hyphens. -/
example : (CardRefV1.tryIntoCore ⟨7, ⟨"0123456789abcdef0123456789abcdef"⟩⟩).map
    CardRefV1.fromCore = .ok ⟨7, ⟨"01234567-89ab-cdef-0123-456789abcdef"⟩⟩ := by decide +kernel

end Summoners
