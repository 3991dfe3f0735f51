/-
  Proofs/Cli/Dump.lean --- a definition is told by the JSON that is printed of it.

  The models of a definition and of its parts give each field of their shapes a value, and different
  models different values.  The shape of a definition is regular and holds no free values, so the
  printed text is decoded to the values that were printed.
-/
import SwaggerRoutes.Cli.Run
import SwaggerRoutes.Proofs.Document.Canonical

set_option autoImplicit false

namespace SwaggerRoutes

open Document Json

/-! ## Models and values -/

theorem Swagger.Location.toValue_injective : Function.Injective Swagger.Location.toValue :=
  Function.LeftInverse.injective ofValue_toValue

/-- The place of a method in the choice tells the method. -/
theorem Swagger.Method.toValue_injective : Function.Injective Swagger.Method.toValue := by
  intro m n h
  have hverb : m.verb = n.verb := by
    have htext := encode_toValue m
    rw [h, encode_toValue n] at htext
    exact (Json.Value.text.inj htext).symm
  cases m <;> cases n <;> first | rfl | exact absurd hverb (by decide)

namespace Route

theorem Param.toValue_injective : Function.Injective Param.toValue := by
  rintro ⟨⟩ ⟨⟩ h
  simp only [toValue, Prod.mk.injEq] at h
  obtain ⟨rfl, hlocation, rfl, rfl, rfl, rfl, rfl, rfl, rfl, rfl, -⟩ := h
  obtain rfl := Swagger.Location.toValue_injective hlocation
  rfl

theorem Verb.toValue_injective : Function.Injective Verb.toValue := by
  rintro ⟨⟩ ⟨⟩ h
  simp only [toValue, Prod.mk.injEq] at h
  obtain ⟨hmethod, rfl, rfl, rfl, rfl, rfl, hparams, rfl, -⟩ := h
  obtain rfl := Swagger.Method.toValue_injective hmethod
  obtain rfl := List.map_injective_iff.mpr Param.toValue_injective hparams
  rfl

theorem Block.toValue_injective : Function.Injective Block.toValue := by
  rintro ⟨⟩ ⟨⟩ h
  simp only [toValue, Prod.mk.injEq] at h
  obtain ⟨rfl, hverbs, -⟩ := h
  obtain rfl := List.map_injective_iff.mpr Verb.toValue_injective hverbs
  rfl

theorem Definition.toValue_injective : Function.Injective Definition.toValue := by
  rintro ⟨⟩ ⟨⟩ h
  simp only [toValue, Prod.mk.injEq] at h
  obtain ⟨hrests, -⟩ := h
  obtain rfl := List.map_injective_iff.mpr Block.toValue_injective hrests
  rfl

end Route

/-! ## Printed definitions -/

namespace Cli

open Route

/-- The text that is printed of a definition is decoded to its values. -/
theorem decode_dump (d : Definition) : decode Definition.shape (dump .json d) = .ok d.toValue := by
  have hregular : Definition.shape.isRegular = true := by decide
  have hfree : Definition.shape.holdsFree = false := by decide
  have hheight : Definition.shape.height ≤ maxDepth := by decide
  have htext : dump .json d = String.ofList (write .indented 0 d.toJson ++ ['\n']) :=
    String.toList_injective (by simp [dump, Value.indentedText])
  rw [htext]
  exact decode_write hregular hfree hheight Spacing.isBlank_indented d.toValue
    (List.forall_mem_singleton.mpr rfl)

/-- Different definitions are printed differently. -/
theorem dump_json_injective : Function.Injective (dump .json) := by
  intro d e h
  have hvalues := decode_dump d
  rw [h, decode_dump e] at hvalues
  exact Definition.toValue_injective (Except.ok.inj hvalues).symm

/-- A description that is empty, and none. -/
theorem dump_json_ne_of_empty_description :
    let v : Verb := ⟨.get, "/a", none, none, none, none, [], "direct:a"⟩
    dump .json ⟨[⟨none, [v]⟩]⟩ ≠ dump .json ⟨[⟨none, [{ v with description := some "" }]⟩]⟩ := by
  intro v h
  exact absurd (dump_json_injective h) (by decide)

end Cli

end SwaggerRoutes
