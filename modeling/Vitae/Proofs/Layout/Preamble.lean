import Vitae.Proofs.Layout.Vocabulary

namespace Vitae.Layout

open Tex

variable {guarded : Prop}

theorem markup_preamble (l : Layout) :
    Markup (l.dialect guarded) (join "\n" l.preamble ++ "\n\n".toList) := by
  cases l <;> exact markup_fixed (by decide +kernel)

end Vitae.Layout
