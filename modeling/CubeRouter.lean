import CubeRouter.Billing.TokenEdit
import CubeRouter.Billing.SubscriptionRefund
import CubeRouter.Quota.Batch
import CubeRouter.Ledger.TokenConservation
import CubeRouter.Ledger.Bounds
import CubeRouter.Ledger.RecordKeys
import CubeRouter.Ledger.Attachment
import CubeRouter.Billing.ServedRequest
import CubeRouter.Override.WildcardExact
import CubeRouter.Override.LegacyKeys
import CubeRouter.Override.Prune
import CubeRouter.Subscription.GroupReturn
import CubeRouter.Polling.FinalizedOnce
import CubeRouter.Polling.MidjourneyRefund
import CubeRouter.Payment.WalletCache
import CubeRouter.Payment.RedeemOnce
import CubeRouter.Payment.CampaignSlots
import CubeRouter.Organization.RuleLookup
import CubeRouter.Organization.Owner
import CubeRouter.Organization.Leaving
import CubeRouter.Organization.InviteLifecycle
import CubeRouter.Routing.PollingOrder
import CubeRouter.Studio.Commitment
import CubeRouter.Plugins.Preflight
import CubeRouter.Plugins.Switches
import CubeRouter.Routing.WeightedChoice
import CubeRouter.Routing.Rebuild
import CubeRouter.Routing.StatusChange
import CubeRouter.Routing.KeyLists
import CubeRouter.Routing.TopLevelKeys
import CubeRouter.Scheduler.Ownership
import CubeRouter.Auth.Revocation
import CubeRouter.Auth.RefreshChain
import CubeRouter.Auth.FieldRefresh
import CubeRouter.Limits.SuccessLimit
import CubeRouter.Limits.TotalLimit
import CubeRouter.Streams.WellFormedStreams
import CubeRouter.Streams.ChatDelivery
import CubeRouter.Polling.EachOnce
import CubeRouter.Billing.AllOrNothing
import CubeRouter.Subscription.PathIndependence
import CubeRouter.Auth.SingleUse
import CubeRouter.Organization.AllowListCache
import CubeRouter.Organization.EffectiveModels
import CubeRouter.Auth.TokenFence
import CubeRouter.Streams.MergedUsage
import CubeRouter.Organization.DanglingReferences
import CubeRouter.Pricing.PreConsume
import CubeRouter.BillingExpr.Cache
import CubeRouter.Billing.TieredHold
import CubeRouter.Pricing.TextConsumption
import CubeRouter.Organization.KeyClearance
import CubeRouter.Routing.AutoGroupRetry
import CubeRouter.Routing.CacheRemoval
