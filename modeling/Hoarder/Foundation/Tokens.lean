/-
Module: Hoarder.Foundation.Tokens
Purpose: Tokens that circulate in a system.  Every key has at most one token, wherever it is, and a
  token fits what the system knows about its key.  A step that exchanges, adds or removes the token
  of one key keeps this, as long as the other keys keep what their tokens fit.
Trusted boundary: none
Main exports: Tokens, Tokens.frame, Tokens.exchange, Tokens.add, Tokens.remove, Tokens.unique
-/
import Mathlib

namespace Hoarder.Foundation

variable {κ τ : Type*}

/-- At most one token for each key, and every token fits. -/
structure Tokens (Fits : κ → τ → Prop) (tokens : Multiset (κ × τ)) : Prop where
  nodup : (tokens.map Prod.fst).Nodup
  fits : ∀ key token, (key, token) ∈ tokens → Fits key token

namespace Tokens

variable {Fits Fits' : κ → τ → Prop} {tokens rest : Multiset (κ × τ)} {key : κ} {token token' : τ}

theorem empty : Tokens Fits 0 := by
  constructor <;> simp

/-- The key of a token has no other token. -/
theorem unique (held : Tokens Fits ((key, token) ::ₘ rest)) (other : τ) : (key, other) ∉ rest := by
  intro member
  have nodup := held.nodup
  rw [Multiset.map_cons, Multiset.nodup_cons] at nodup
  exact nodup.1 (Multiset.mem_map.mpr ⟨(key, other), member, rfl⟩)

/-- What the tokens fit may change for keys that have no token. -/
theorem frame (held : Tokens Fits tokens)
    (kept : ∀ key token, (key, token) ∈ tokens → Fits key token → Fits' key token) :
    Tokens Fits' tokens :=
  ⟨held.nodup, fun key token member => kept key token member (held.fits key token member)⟩

/-- The token of a key is removed. -/
theorem remove (held : Tokens Fits ((key, token) ::ₘ rest))
    (kept : ∀ other token, other ≠ key → Fits other token → Fits' other token) :
    Tokens Fits' rest := by
  have nodup := held.nodup
  rw [Multiset.map_cons, Multiset.nodup_cons] at nodup
  refine ⟨nodup.2, fun other otherToken member => ?_⟩
  refine kept other otherToken ?_ (held.fits other otherToken (Multiset.mem_cons_of_mem member))
  rintro rfl
  exact held.unique otherToken member

/-- A key without a token is given one. -/
theorem add (held : Tokens Fits tokens) (fresh : ∀ token, (key, token) ∉ tokens)
    (fits : Fits key token) : Tokens Fits ((key, token) ::ₘ tokens) := by
  refine ⟨?_, fun other otherToken member => ?_⟩
  · rw [Multiset.map_cons, Multiset.nodup_cons]
    refine ⟨fun member => ?_, held.nodup⟩
    obtain ⟨⟨same, other⟩, otherMember, rfl⟩ := Multiset.mem_map.mp member
    exact fresh other otherMember
  · rcases Multiset.mem_cons.mp member with same | member
    · cases same
      exact fits
    · exact held.fits other otherToken member

/-- The token of a key is exchanged for another. -/
theorem exchange (held : Tokens Fits ((key, token) ::ₘ rest)) (fits : Fits' key token')
    (kept : ∀ other token, other ≠ key → Fits other token → Fits' other token) :
    Tokens Fits' ((key, token') ::ₘ rest) :=
  (held.remove kept).add held.unique fits

end Tokens

end Hoarder.Foundation
