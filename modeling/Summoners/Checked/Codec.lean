import Summoners.Checked.Collect

/-! # Lossless conversions

A conversion `enc : α → ω` that cannot fail, with the fallible reader `dec : ω → Except ε α` of what
it writes. `Lossless Good Written enc dec` says that reading undoes writing on the good values, that
`Written` holds of what is written, and that writing undoes reading where it holds: a reader may
accept other spellings of a value, and these are the inputs the last law leaves out.

* `injective` is what the first law says about `enc` alone.
* `list` and `option` lift a conversion through `map` and a reader that stops at the first error.
* `mapError` changes the error of the reader, `congr` restates the two domains.
-/

namespace Checked
set_option autoImplicit false

variable {ε δ α ω : Type} {Good : α → Prop} {Written : ω → Prop}

structure Lossless (Good : α → Prop) (Written : ω → Prop) (enc : α → ω) (dec : ω → Except ε α) :
    Prop where
  dec_enc : ∀ {a}, Good a → dec (enc a) = .ok a
  written : ∀ a, Written (enc a)
  enc_dec : ∀ {w a}, Written w → dec w = .ok a → enc a = w

theorem mapM_cons_ok_iff {f : ω → Except ε α} {w : ω} {ws : List ω} {l : List α} :
    (w :: ws).mapM f = .ok l ↔ ∃ a, f w = .ok a ∧ ∃ as, ws.mapM f = .ok as ∧ a :: as = l := by
  rw [List.mapM_cons]
  simp only [bind_ok_iff, pure_ok_iff]

theorem mapError_ok_iff {f : ε → δ} {x : Except ε α} {a : α} :
    x.mapError f = .ok a ↔ x = .ok a := by
  cases x with
  | error e => simp [Except.mapError]
  | ok b => simp [Except.mapError]

namespace Lossless
variable {enc : α → ω} {dec : ω → Except ε α} (h : Lossless Good Written enc dec)
include h

theorem injective {a b : α} (ha : Good a) (hb : Good b) (heq : enc a = enc b) : a = b := by
  have hread : dec (enc a) = .ok b := heq ▸ h.dec_enc hb
  rw [h.dec_enc ha] at hread
  exact Except.ok.inj hread

theorem congr {Good' : α → Prop} {Written' : ω → Prop} (hgood : ∀ {a}, Good' a → Good a)
    (hwritten : ∀ {w}, Written' w ↔ Written w) : Lossless Good' Written' enc dec where
  dec_enc ha := h.dec_enc (hgood ha)
  written a := hwritten.mpr (h.written a)
  enc_dec hw := h.enc_dec (hwritten.mp hw)

theorem mapError (f : ω → ε → δ) :
    Lossless Good Written enc (fun w => (dec w).mapError (f w)) where
  dec_enc ha := by
    rw [h.dec_enc ha]
    rfl
  written := h.written
  enc_dec hw hread := h.enc_dec hw (mapError_ok_iff.mp hread)

theorem list : Lossless (fun l => ∀ a ∈ l, Good a) (fun l => ∀ w ∈ l, Written w)
    (List.map enc) (List.mapM dec) where
  dec_enc {l} hl := by
    induction l with
    | nil => rfl
    | cons a l ih =>
        rw [List.map_cons, mapM_cons_ok_iff]
        exact ⟨a, h.dec_enc (hl a List.mem_cons_self), l,
          ih (fun b hb => hl b (List.mem_cons_of_mem _ hb)), rfl⟩
  written l := by
    rw [List.forall_mem_map]
    intro a _
    exact h.written a
  enc_dec {ws l} hw hread := by
    induction ws generalizing l with
    | nil =>
        cases hread
        rfl
    | cons w ws ih =>
        obtain ⟨a, ha, as, has, rfl⟩ := mapM_cons_ok_iff.mp hread
        rw [List.map_cons, h.enc_dec (hw w List.mem_cons_self) ha,
          ih (fun v hv => hw v (List.mem_cons_of_mem _ hv)) has]

theorem option : Lossless (fun o => ∀ a ∈ o, Good a) (fun o => ∀ w ∈ o, Written w)
    (Option.map enc) (Option.mapM dec) where
  dec_enc {o} ho := by
    cases o with
    | none => rfl
    | some a =>
        show some <$> dec (enc a) = _
        rw [h.dec_enc (ho a rfl)]
        rfl
  written o := by
    intro w hw
    obtain ⟨a, -, rfl⟩ := Option.map_eq_some_iff.mp hw
    exact h.written a
  enc_dec {o r} hw hread := by
    cases o with
    | none =>
        cases hread
        rfl
    | some w =>
        change some <$> dec w = _ at hread
        cases hdec : dec w with
        | error e =>
            rw [hdec] at hread
            cases hread
        | ok a =>
            rw [hdec] at hread
            cases hread
            rw [Option.map_some, h.enc_dec (hw w rfl) hdec]

end Lossless

end Checked
