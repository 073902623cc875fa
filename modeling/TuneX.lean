import TuneX.Agent.GuardExpiry
import TuneX.Agent.IdleExpiry
import TuneX.Agent.JournalIdentity
import TuneX.Agent.JournalSize
import TuneX.Agent.ListenerSlot
import TuneX.Agent.NodeBudget
import TuneX.Agent.ProbeBudgets
import TuneX.Agent.ProbeSession
import TuneX.Agent.RelayTransparent
import TuneX.Agent.UdpCarriage
import TuneX.Contracts.Networks
import TuneX.Contracts.RelayDeployments
import TuneX.Contracts.SafeIntegers
import TuneX.Control.Activation
import TuneX.Control.Authority
import TuneX.Control.Cutoff
import TuneX.Control.PathReads
import TuneX.Control.PermitRuns
import TuneX.Control.RequestKeys
import TuneX.Control.TransitSafety
import TuneX.Runtime.ProbeWatch
import TuneX.Runtime.HeldAuthority
