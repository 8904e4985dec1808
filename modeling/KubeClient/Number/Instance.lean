/-!
# The instances behind numbers and lists

Algebra knows powers of every monoid, zeros of every semiring and orders of lists of everything that
has an order. The numbers and lists here are plain ones, and their powers, sums and orders are the
plain ones too, whatever else is in scope.

* `zeroNat`, `zeroInt` : the zeros that sums start from.
-/

namespace KubeClient

attribute [default_instance 20000, instance (high)] instPowNat

attribute [instance (high)] List.instLE

instance (priority := high) zeroNat : Zero Nat := ⟨0⟩

instance (priority := high) zeroInt : Zero Int := ⟨0⟩

end KubeClient
