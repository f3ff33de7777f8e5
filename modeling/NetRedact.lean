import NetRedact.Main
import NetRedact.Store.RedisServer
import NetRedact.Proofs.Lifetimes
import NetRedact.Proofs.Residue
import NetRedact.Proofs.LimiterRuns
import NetRedact.Proofs.SlidingWindow
import NetRedact.Proofs.LateCalls
import NetRedact.Proofs.ExpiringMap
import NetRedact.Proofs.Reclamation
import NetRedact.Proofs.StoreClients
import NetRedact.Proofs.Skeletons
import NetRedact.Proofs.NameSpaces
import NetRedact.Proofs.LoneLiterals
import NetRedact.Proofs.Splicing
import NetRedact.Proofs.TrackedIdentities
import NetRedact.Proofs.Upkeep
import NetRedact.Proofs.RequestForms
import NetRedact.Proofs.Frames
import NetRedact.Proofs.GivingUp
import NetRedact.Proofs.Locality
import NetRedact.Proofs.SpelledAddresses
import NetRedact.Proofs.EmbeddedQuads
import NetRedact.Proofs.ProseWords
import NetRedact.Proofs.HeldTimes
import NetRedact.Proofs.RetryHints
import NetRedact.Proofs.Expiry
import NetRedact.Proofs.PlainMerge
import NetRedact.Proofs.NumberTexts
import NetRedact.Proofs.Overrides
import NetRedact.Proofs.SocketSpelling
import NetRedact.Proofs.Validation
import NetRedact.Proofs.MacLayouts
