import GoSync.Reconciliation.Handshake
import GoSync.Server.Generations

/-!
# Repairs after the round

A round that asks for a repair leaves an authorization at the server and a collector with a queue to fill
again. The collector comes back under a new generation, and its hello alone uses the authorization up.
-/

namespace GoSync.Reconciliation

open Rpc Server Server.Host

variable {Raw Value Hash : Type} [DecidableEq Hash] {rt : Runtime Raw Value Hash} {service : ServiceSettings}
  {host : Host Raw Value Hash}

section Instances

end Instances

end GoSync.Reconciliation
