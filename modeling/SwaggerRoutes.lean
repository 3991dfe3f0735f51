import SwaggerRoutes.Main
import SwaggerRoutes.Proofs.Source.Lexical
import SwaggerRoutes.Proofs.Source.Imports
import SwaggerRoutes.Proofs.Source.Formats
import SwaggerRoutes.Proofs.Naming.Hosts
import SwaggerRoutes.Proofs.Naming.Titles
import SwaggerRoutes.Proofs.Route.Merging
import SwaggerRoutes.Proofs.Route.Notices
import SwaggerRoutes.Proofs.Route.Sharing
import SwaggerRoutes.Proofs.Generator.Directory
import SwaggerRoutes.Proofs.Generator.EmptyIds
import SwaggerRoutes.Proofs.Generator.Lifetime
import SwaggerRoutes.Proofs.Generator.Names
import SwaggerRoutes.Proofs.Generator.Placement
import SwaggerRoutes.Proofs.Files.Bookkeeping
import SwaggerRoutes.Proofs.Cli.Dump
import SwaggerRoutes.Proofs.Cli.Outcomes
import SwaggerRoutes.Proofs.Swagger.RoundTrip
import SwaggerRoutes.Proofs.Swagger.Arrangement
import SwaggerRoutes.Proofs.Swagger.Assignment
