import PatchPanel.Main
import PatchPanel.Proofs.Index
import PatchPanel.Proofs.SwitchMap
import PatchPanel.Proofs.Hops
import PatchPanel.Proofs.Requests
import PatchPanel.Proofs.Mirror
import PatchPanel.Proofs.Broadcast
import PatchPanel.Proofs.Wiring
import PatchPanel.Proofs.Emissions
import PatchPanel.Proofs.Json.Reading
import PatchPanel.Proofs.Compiling
import PatchPanel.Proofs.Encodings
import PatchPanel.Proofs.Versions
import PatchPanel.Proofs.Reversal
import PatchPanel.Proofs.Resolution
import PatchPanel.Proofs.Addressing
import PatchPanel.Proofs.Priorities
import PatchPanel.Proofs.Meeting
import PatchPanel.Proofs.Domains
import PatchPanel.Proofs.Cables
import PatchPanel.Proofs.Drafting
import PatchPanel.Proofs.Links
import PatchPanel.Proofs.Roles
import PatchPanel.Proofs.Rearranging
import PatchPanel.Proofs.Failing
import PatchPanel.Proofs.Laying
import PatchPanel.Proofs.Utf8
import PatchPanel.Proofs.Sending
import PatchPanel.Proofs.Json.Restoring
import PatchPanel.Proofs.Schemas
import PatchPanel.Proofs.Bodies
import PatchPanel.Proofs.Refusals
import PatchPanel.Proofs.Contents
import PatchPanel.Proofs.Shapes
import PatchPanel.Proofs.Faults.Topology
import PatchPanel.Proofs.Faults.Wiring
import PatchPanel.Proofs.Faults.Wire
import PatchPanel.Proofs.Merging
import PatchPanel.Proofs.Positions
import PatchPanel.Proofs.Text.Splitting
import PatchPanel.Proofs.Addresses
import PatchPanel.Proofs.Passes
