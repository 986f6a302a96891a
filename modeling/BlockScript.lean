import BlockScript.Api.Command
import BlockScript.Api.Draft
import BlockScript.Api.NameTemplate
import BlockScript.Api.PaneLabel
import BlockScript.Assistant.Command
import BlockScript.Build.Generation
import BlockScript.Build.Installer
import BlockScript.Build.Payload
import BlockScript.Build.Pipeline
import BlockScript.Main
import BlockScript.Mlct.WordReport
import BlockScript.PageScope
import BlockScript.Sample.Blocks
import BlockScript.Sample.Shapes
import BlockScript.Sample.Tour
import BlockScript.Shipped
import BlockScript.Window.PaneReport
import BlockScript.Proofs.Commands
import BlockScript.Proofs.Positional
import BlockScript.Proofs.Expansion
import BlockScript.Proofs.Imports
import BlockScript.Proofs.Namespaces
import BlockScript.Proofs.Selections
import BlockScript.Proofs.LibraryNames
import BlockScript.Proofs.Sections
import BlockScript.Proofs.GameValueNames
import BlockScript.Proofs.RequiredTier
import BlockScript.Proofs.MlctTokens
import BlockScript.Proofs.ArgumentCounts
import BlockScript.Proofs.Conditions
import BlockScript.Proofs.ArrayLists
import BlockScript.Proofs.Weights
import BlockScript.Proofs.Selectors
import BlockScript.Proofs.Choices
import BlockScript.Proofs.Assistance
import BlockScript.Proofs.ExportedWorlds
import BlockScript.Proofs.SwitchOptions
import BlockScript.Proofs.WindowArguments
import BlockScript.Proofs.WrittenPlans
import BlockScript.Proofs.HiddenTexts
import BlockScript.Proofs.PartedArguments
import BlockScript.Proofs.Scopes
import BlockScript.Proofs.AssignmentSigns
import BlockScript.Proofs.Factors
import BlockScript.Proofs.Placeholders
