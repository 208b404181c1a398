import QuocNgu.Text

/-!
# Text.Part — one text inside another

* `isPart` : the first text stands somewhere in the second, its code points side by side
-/

namespace QuocNgu
namespace Text

def isPart (part : Text) : Text → Bool
  | [] => part.isEmpty
  | p :: t => part.isPrefixOf (p :: t) || isPart part t

theorem isPart_iff {part t : Text} : isPart part t = true ↔ part <:+: t := by
  induction t with
  | nil =>
      simp [isPart]
  | cons p t ih =>
      rw [isPart, Bool.or_eq_true, List.isPrefixOf_iff_prefix, ih, List.infix_cons_iff]

end Text
end QuocNgu
