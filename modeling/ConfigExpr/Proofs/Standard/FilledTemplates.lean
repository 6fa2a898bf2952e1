import ConfigExpr.Proofs.Template.Placeholders
import ConfigExpr.Standard.TextFunctions

/-!
Templates of literal texts with placeholders, filled with the texts of scalars in order.
-/
namespace ConfigExpr.Standard
open Template

theorem checkKinds_values (index : Nat) (values : List Value) :
    HostFunction.checkKinds formatted.signature (index + 1) values = .ok () := by
  induction values generalizing index with
  | nil => rfl
  | cons v values ih =>
    have described :
        formatted.signature.parameter? (index + 1) = some (.allowed "values" .any) := by
      cases index <;> rfl
    rw [HostFunction.checkKinds, described]
    exact ih (index + 1)

theorem formatted_call (template : String) (values : List Value) (context : Context) :
    formatted.call (.string template :: values) context = format "sprintf" template values := by
  have least : formatted.signature.least = 1 := rfl
  have most : formatted.signature.most = none := rfl
  have accepted : formatted.signature.acceptsCount (values.length + 1) = true := by
    rw [Signature.acceptsCount, least, most]
    simp
  have validated : HostFunction.validate formatted.signature (.string template :: values) =
      .ok () := by
    rw [HostFunction.validate, List.length_cons, if_pos accepted]
    exact checkKinds_values 0 values
  rw [HostFunction.call, validated]
  rfl

/-- Placeholders take the texts of scalars one after the other, whatever stands in the literal texts
around them. If the scalars do not suffice, the message tells how many arguments there would have to
be for the first placeholder without one, where the template counts as an argument. -/
theorem placeholders_take_texts_in_order (first : String) (others : List String)
    {values : List Value} (scalars : ∀ v ∈ values, v.isScalar = true) (context : Context) :
    ∃ texts, values.mapM Value.text? = some texts ∧
      ((Utf8.encode (filled first others texts)).length ≤ outputLimit →
        formatted.call (.string (placeholderTemplate first others) :: values) context =
          if others.length ≤ values.length then .ok (.string (filled first others texts))
          else
            .error (.failed "sprintf" (CallFailure.number (values.length + 2) ++
              " arguments are required, " ++ CallFailure.number (values.length + 1) ++
              " given"))) := by
  have shown := Value.mapM_text? scalars
  refine ⟨_, shown, fun fits => ?_⟩
  rw [formatted_call]
  exact format_placeholders "sprintf" first shown fits

theorem placeholders_take_texts_in_order_adjacent :
    let template := "100%%%s1$%%%s%%s"
    (∀ v ∈ [Value.string "a%s", .bool true], v.isScalar = true) ∧
      placeholderTemplate "100%" ["1$%", "%s"] = template ∧
      formatted.call [.string template, .string "a%s", .bool true] ⟨0, 0⟩ =
        .ok (.string "100%a%s1$%1%s") ∧
      formatted.call [.string template, .string "a%s"] ⟨0, 0⟩ =
        .error (.failed "sprintf" "3 arguments are required, 2 given") := by
  intro template
  have scalars : ∀ v ∈ [Value.string "a%s", .bool true], v.isScalar = true := by
    simp [Value.isScalar]
  have one : ∀ v ∈ [Value.string "a%s"], v.isScalar = true := by simp [Value.isScalar]
  have written : placeholderTemplate "100%" ["1$%", "%s"] = template := by decide
  obtain ⟨texts, shown, both⟩ :=
    placeholders_take_texts_in_order "100%" ["1$%", "%s"] scalars ⟨0, 0⟩
  obtain ⟨texts', shown', missing⟩ :=
    placeholders_take_texts_in_order "100%" ["1$%", "%s"] one ⟨0, 0⟩
  obtain rfl := Option.some.inj shown
  obtain rfl := Option.some.inj shown'
  rw [written] at both missing
  exact ⟨scalars, written, both (by decide), missing (by decide)⟩

end ConfigExpr.Standard
