import Summoners.Cards.Authored
import Summoners.Cards.Specimen
import Summoners.Engine.Apply
import Summoners.Scenario
import Summoners.Steps.Standing
import Summoners.Steps.Stock
import Summoners.Proof.LossAccounting
import Summoners.Proof.OverDamage
import Summoners.Proof.ThirdLoss
import Summoners.Proof.Conservation
import Summoners.Proof.Identity
import Summoners.Proof.ManaLedger
import Summoners.Proof.MainFilled
import Summoners.Proof.Rest
import Summoners.Proof.Roster
import Summoners.Proof.Terminal
import Summoners.Proof.StackOrder
import Summoners.Proof.Termination
import Summoners.Proof.Priority
import Summoners.Proof.Firing
import Summoners.Proof.Upkeep
import Summoners.Proof.TurnLimits
import Summoners.Proof.Moments
import Summoners.Proof.Readiness
import Summoners.Proof.Protection
import Summoners.Proof.Answers
import Summoners.Proof.Breakage
import Summoners.Proof.Entries
import Summoners.Proof.Arrivals
import Summoners.Proof.Deduction
import Summoners.Proof.DamagePipeline
import Summoners.Proof.Decisions
import Summoners.Symmetry.Actions
import Summoners.Proof.Lossless
import Summoners.Proof.Grammar
import Summoners.Proof.ParsesBack
import Summoners.Proof.Interpretable
import Summoners.Proof.Chains
import Summoners.Proof.RetreatCost
import Summoners.Cards.Recipe
import Summoners.Proof.Deal
import Summoners.Proof.FailsClosed
import Summoners.Proof.FirstDifference
import Summoners.Proof.JsonForms
import Summoners.Proof.ComparedRecords
import Summoners.Proof.Comparison
import Summoners.Cceroby.Slug
import Summoners.Cceroby.Xmp
import Summoners.Cceroby.Thumbnail
import Summoners.Proof.EntitySpelling
import Summoners.Cceroby.Routes
import Summoners.Cceroby.SearchGate
import Summoners.Cceroby.Cards
import Summoners.Checked.Slots
import Summoners.Cli.Prompt
import Summoners.Cli.PromptRun
import Summoners.Cceroby.Paging
import Summoners.Cceroby.PagingRun
import Summoners.Checked.History
import Summoners.Cli.Protocol
import Summoners.Cli.Session
import Summoners.Cli.SessionHistory
import Summoners.MatchLog.Replay
import Summoners.Proof.Replays
import Summoners.Proof.SameRecords
import Summoners.Proof.Verdicts
import Summoners.Cli.SessionTranscript
