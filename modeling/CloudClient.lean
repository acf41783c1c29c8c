import CloudClient.Client
import CloudClient.Log
import CloudClient.Machine.Cancel
import CloudClient.Machine.Run
import CloudClient.Machine.Script
import CloudClient.Machine.Solo
import CloudClient.Proofs.Delivery.Overflow
import CloudClient.Proofs.Delivery.Renewal
import CloudClient.Proofs.Token.Exchange
import CloudClient.Service
import CloudClient.Proofs.Token.Getting
import CloudClient.Proofs.Token.Lifetime
import CloudClient.Proofs.Http.Percent
import CloudClient.Proofs.Http.Path
import CloudClient.Proofs.Service.Places
import CloudClient.Proofs.Retry.Budget
import CloudClient.Proofs.Delivery.Budget
import CloudClient.Proofs.Delivery.RetryAfter
import CloudClient.Proofs.Delivery.Persistence
import CloudClient.Proofs.Delivery.Cancellation
import CloudClient.Proofs.Delivery.Fidelity
import CloudClient.Proofs.Token.Secret
import CloudClient.Proofs.Resource.Created
import CloudClient.Proofs.Retry.Delays
import CloudClient.Proofs.Delivery.CacheChanges
import CloudClient.Proofs.Resource.ProviderFields
import CloudClient.Proofs.Retry.Trials
import CloudClient.Proofs.Error.Message
import CloudClient.Proofs.Content.Identifier
import CloudClient.Proofs.Token.Parameters
import CloudClient.Proofs.Resource.Prices
import CloudClient.Proofs.Resource.Updates
import CloudClient.Proofs.Service.Targets
import CloudClient.Proofs.Service.Deployments
import CloudClient.Proofs.Config.Settings
import CloudClient.Proofs.Config.Environment
import CloudClient.Proofs.Config.Precedence
import CloudClient.Proofs.Service.Endpoints
import CloudClient.Proofs.Delivery.Traffic
