import ContentAddress.Proofs.Confinement
import ContentAddress.Proofs.FeedRuns
import ContentAddress.Proofs.HeldChunks
import ContentAddress.Proofs.ReadHistory

/-!
# What is reported of a put

A put reports each chunk that it appends and, in the end, what it has identified; in between stands
what the source reports when it is pulled from.  Lists, feeds and played chunks report nothing, and
a source over a reader reports the error that ends it, in the pull that meets it and in no other.
What a listener hears depends on its limit, and nothing else does.
-/

namespace ContentAddress

universe u v

open Source

/-! ## Events of a drain -/

namespace Source

variable {σ : Type u} [Source σ]

variable {source after : σ} {chunks : List Bytes}

end Source

namespace ReadSource

variable {ρ : Type u} [Reader ρ]

end ReadSource

/-! ## Listeners -/

namespace Session

section Steps

variable (session : Session) (limit : Option Level)

variable {limit}

end Steps

section Shown

variable {session : Session} {named : Option String} {client : Client}
  (hclient : session.client? named = some client)

include hclient

end Shown

end Session

/-! ## All that is reported -/

section Readers

variable {ρ : Type u} [Reader ρ] (client : Client) {pool : Pool} (hpool : pool.Reachable)

include hpool

end Readers

end ContentAddress
