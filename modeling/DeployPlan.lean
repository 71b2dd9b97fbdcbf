import DeployPlan.Text.Blank
import DeployPlan.Text.LetterCase
import DeployPlan.Text.Quoted
import DeployPlan.KeyMap
import DeployPlan.Binary64.Decimal
import DeployPlan.Json.Printer
import DeployPlan.Json.Reader
import DeployPlan.Yaml.Tree
import DeployPlan.Yaml.ToJson
import DeployPlan.Yaml.Decode
import DeployPlan.Interpolation
import DeployPlan.FileTree
import DeployPlan.Bytes.Base64
import DeployPlan.Bytes.Digest
import DeployPlan.Bytes.Zip
import DeployPlan.Manifest.Decode
import DeployPlan.Manifest.Encode
import DeployPlan.Manifest.Packages
import DeployPlan.Manifest.Route
import DeployPlan.Compose.Report
import DeployPlan.Plan.Encode
import DeployPlan.Plan.Decode
import DeployPlan.Parameter
import DeployPlan.Limit
import DeployPlan.Source.Code
import DeployPlan.Source.Archive
import DeployPlan.Yaml.Canonical
import DeployPlan.Settings.Basic
import DeployPlan.License
import DeployPlan.Reference
import DeployPlan.Location
import DeployPlan.WebMode
import DeployPlan.Compose.Context
import DeployPlan.Compose.Action
import DeployPlan.Compose.Entity
import DeployPlan.Compose.Plan
import DeployPlan.Override
import DeployPlan.Compose.Build
import DeployPlan.Settings.Reader
import DeployPlan.CommandLine.Arguments
import DeployPlan.CommandLine.Run
import DeployPlan.Main
import DeployPlan.Proofs.Compose.Aggregates
import DeployPlan.Proofs.WellKeyed
import DeployPlan.Proofs.Override.Repetition
import DeployPlan.Proofs.EntityLaw
import DeployPlan.Proofs.Compose.Build
import DeployPlan.Proofs.NullValues
import DeployPlan.Proofs.Marker
import DeployPlan.Proofs.Manifest.Fields
import DeployPlan.Proofs.Manifest.RoundTrip
import DeployPlan.Proofs.Manifest.Rendering
import DeployPlan.Proofs.EntityMaps
import DeployPlan.Proofs.Managed
import DeployPlan.Proofs.Strict
import DeployPlan.Proofs.Addressing
import DeployPlan.Proofs.Dependencies
import DeployPlan.Proofs.WellFormed
import DeployPlan.Proofs.Union
import DeployPlan.Proofs.Variables
import DeployPlan.Proofs.Spelling
import DeployPlan.Proofs.Override.Order
import DeployPlan.Proofs.Plan.RoundTrip
import DeployPlan.Proofs.Manifest.Insertion
import DeployPlan.Proofs.Declarations
import DeployPlan.Proofs.Links
import DeployPlan.Proofs.Compose.Archives
import DeployPlan.Proofs.Archive
import DeployPlan.Proofs.Interpolation
import DeployPlan.Proofs.Interpolation.Append
import DeployPlan.Proofs.Yaml.Resolved
import DeployPlan.Proofs.Yaml.Mappings
import DeployPlan.Proofs.Coercion
import DeployPlan.Proofs.Compose.ActionOutcome
import DeployPlan.Proofs.Compose.Warnings
import DeployPlan.Proofs.ArchiveEntries
import DeployPlan.Proofs.Draws
import DeployPlan.Proofs.Override.Inputs
import DeployPlan.Proofs.Override.Restated
import DeployPlan.Proofs.Parameter.Moved
import DeployPlan.Proofs.Reference
import DeployPlan.Proofs.Code
import DeployPlan.Proofs.Location
import DeployPlan.Proofs.WebMode
import DeployPlan.Proofs.Route
import DeployPlan.Proofs.Manifest.ScalarFields
import DeployPlan.Proofs.ExitCode
