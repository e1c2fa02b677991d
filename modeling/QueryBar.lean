import QueryBar.Bar.Replay
import QueryBar.Http
import QueryBar.Proofs.Bar.ArrivalOrder
import QueryBar.Proofs.Bar.Echo
import QueryBar.Proofs.Bar.FreeText
import QueryBar.Proofs.Bar.FunctionNames
import QueryBar.Proofs.Bar.Reopening
import QueryBar.Proofs.Bar.Replacement
import QueryBar.Proofs.Bar.Settled
import QueryBar.Proofs.Bar.Vetting
import QueryBar.Proofs.Buckets.Handled
import QueryBar.Proofs.Buckets.Merging
import QueryBar.Proofs.Row.Brackets
import QueryBar.Proofs.Search.Outcome
import QueryBar.Proofs.Search.Served
import QueryBar.Settings.Layers
import QueryBar.Source.Stock
import QueryBar.Proofs.Bar.Provenance
import QueryBar.Proofs.Tokens.Grammar
import QueryBar.Proofs.Bar.Composing
import QueryBar.Proofs.Json.Quoted
import QueryBar.Proofs.Bar.Dragging
import QueryBar.Proofs.Tokens.Layout
import QueryBar.Proofs.Matcher.Members
import QueryBar.Proofs.Bar.Clicks
import QueryBar.Proofs.Bar.Verdict
import QueryBar.Proofs.Bar.Errors
import QueryBar.Proofs.Bar.Highlight
import QueryBar.Proofs.Bar.LoadingCategories
import QueryBar.Proofs.Search.Settling
import QueryBar.Proofs.Row.Removal
import QueryBar.Proofs.Buckets.Pages
import QueryBar.Proofs.Bar.Failures
import QueryBar.Proofs.Search.Names
import QueryBar.Proofs.Row.Deletions
import QueryBar.Proofs.Bar.Exchanges
import QueryBar.Proofs.Bar.Completion
import QueryBar.Proofs.Bar.Observers
import QueryBar.Proofs.Row.Blocks
import QueryBar.Proofs.Settings
